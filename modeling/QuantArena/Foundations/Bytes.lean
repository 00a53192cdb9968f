import Mathlib.Algebra.Order.Ring.Int
import Mathlib.Tactic.Linarith
import Mathlib.Tactic.Positivity
import Mathlib.Tactic.Ring
import QuantArena.Foundations.Fault

/-! Little-endian integers of a fixed width in bytes: written with or without a
range check, and read off the front of a byte string. -/

set_option autoImplicit false

namespace QuantArena.Foundations.Bytes

/-- The low `width` bytes of a number, least significant first. -/
def little : Nat → Nat → List UInt8
  | 0, _ => []
  | width + 1, value => UInt8.ofNat value :: little width (value / 256)

def ofLittle : List UInt8 → Nat
  | [] => 0
  | byte :: rest => byte.toNat + 256 * ofLittle rest

@[simp] theorem length_little (width value : Nat) : (little width value).length = width := by
  induction width generalizing value with
  | zero => rfl
  | succ width ih => simp [little, ih]

theorem ofLittle_little (width value : Nat) : ofLittle (little width value) = value % 256 ^ width := by
  induction width generalizing value with
  | zero => simp [little, ofLittle, Nat.mod_one]
  | succ width ih =>
      rw [little, ofLittle, ih, UInt8.toNat_ofNat', Nat.pow_succ 256, Nat.mul_comm (256 ^ width) 256,
        Nat.mod_mul]

/-- The bytes of an integer in two's complement, whatever does not fit cut off. -/
def truncated (width : Nat) (value : Int) : List UInt8 :=
  little width (value % 256 ^ width).toNat

@[simp] theorem length_truncated (width : Nat) (value : Int) :
    (truncated width value).length = width := length_little _ _

/-- `struct`'s unsigned field: it raises rather than cut anything off. -/
def packUnsigned (width : Nat) (value : Int) : Except Fault (List UInt8) :=
  if 0 ≤ value ∧ value < 256 ^ width then .ok (truncated width value) else .error .outOfRange

def packSigned (width : Nat) (value : Int) : Except Fault (List UInt8) :=
  if -(256 ^ width / 2) ≤ value ∧ value < 256 ^ width / 2 then .ok (truncated width value)
  else .error .outOfRange

/-- Reinterpret the low `8 * width` bits as a signed number. -/
def signed (width : Nat) (value : Int) : Int :=
  if value % 256 ^ width < 256 ^ width / 2 then value % 256 ^ width
  else value % 256 ^ width - 256 ^ width

/-- An unsigned field off the front of the data, and the rest. -/
def takeUnsigned (width : Nat) (data : List UInt8) : Int × List UInt8 :=
  (ofLittle (data.take width), data.drop width)

def takeSigned (width : Nat) (data : List UInt8) : Int × List UInt8 :=
  (signed width (ofLittle (data.take width)), data.drop width)

theorem packUnsigned_eq_ok {width : Nat} {value : Int} {bytes : List UInt8} :
    packUnsigned width value = .ok bytes ↔
      (0 ≤ value ∧ value < 256 ^ width) ∧ bytes = truncated width value := by
  unfold packUnsigned
  split
  · rename_i fits
    simp [fits, eq_comm]
  · rename_i outside
    simp [outside]

theorem packSigned_eq_ok {width : Nat} {value : Int} {bytes : List UInt8} :
    packSigned width value = .ok bytes ↔
      (-(256 ^ width / 2) ≤ value ∧ value < 256 ^ width / 2) ∧ bytes = truncated width value := by
  unfold packSigned
  split
  · rename_i fits
    simp [fits, eq_comm]
  · rename_i outside
    simp [outside]

theorem ofLittle_truncated (width : Nat) (value : Int) :
    (ofLittle (truncated width value) : Int) = value % 256 ^ width := by
  have positive : (0 : Int) < 256 ^ width := by positivity
  have nonneg := Int.emod_nonneg value positive.ne'
  have below := Int.emod_lt_of_pos value positive
  rw [truncated, ofLittle_little, Int.natCast_emod, Int.toNat_of_nonneg nonneg]
  push_cast
  exact Int.emod_eq_of_lt nonneg below

theorem takeUnsigned_truncated (width : Nat) (value : Int) (rest : List UInt8) :
    takeUnsigned width (truncated width value ++ rest) = (value % 256 ^ width, rest) := by
  have own : (truncated width value).length = width := length_truncated _ _
  rw [takeUnsigned, List.take_left' own, List.drop_left' own, ofLittle_truncated]

theorem signed_emod (width : Nat) (value : Int) : signed width (value % 256 ^ width) = signed width value := by
  simp only [signed, Int.emod_emod_of_dvd _ (dvd_refl _)]

theorem takeSigned_truncated (width : Nat) (value : Int) (rest : List UInt8) :
    takeSigned width (truncated width value ++ rest) = (signed width value, rest) := by
  have own : (truncated width value).length = width := length_truncated _ _
  rw [takeSigned, List.take_left' own, List.drop_left' own, ofLittle_truncated, signed_emod]

theorem unsigned_of_fits {width : Nat} {value : Int} (fits : 0 ≤ value ∧ value < 256 ^ width) :
    value % 256 ^ width = value := Int.emod_eq_of_lt fits.1 fits.2

private theorem centred_emod {half value : Int} (low : -half ≤ value) (high : value < half) :
    (if value % (2 * half) < half then value % (2 * half) else value % (2 * half) - 2 * half) =
      value := by
  by_cases negative : value < 0
  · have wrapped : value % (2 * half) = value + 2 * half := by
      rw [← Int.add_mul_emod_self_left value (2 * half) 1]
      exact (Int.emod_eq_of_lt (by omega) (by omega)).trans (by ring)
    rw [wrapped, if_neg (by omega)]
    omega
  · rw [Int.emod_eq_of_lt (by omega) (by omega), if_pos high]

theorem signed_of_fits {width : Nat} {value : Int} (wide : width ≠ 0)
    (fits : -(256 ^ width / 2) ≤ value ∧ value < 256 ^ width / 2) : signed width value = value := by
  obtain ⟨half, halfEq⟩ : ∃ half : Int, (256 : Int) ^ width = 2 * half := by
    obtain ⟨less, rfl⟩ := Nat.exists_eq_succ_of_ne_zero wide
    exact ⟨128 * 256 ^ less, by rw [pow_succ]; ring⟩
  have middle : (256 : Int) ^ width / 2 = half := by
    rw [halfEq]
    exact Int.mul_ediv_cancel_left half (by decide)
  rw [middle] at fits
  rw [signed, middle, halfEq]
  exact centred_emod fits.1 fits.2

/-! ## Bytes that were not written -/

theorem ofLittle_bounded (bytes : List UInt8) : ofLittle bytes < 256 ^ bytes.length := by
  induction bytes with
  | nil => exact Nat.one_pos
  | cons byte rest ih =>
      have low := byte.toNat_lt
      rw [ofLittle, List.length_cons, Nat.pow_succ]
      omega

theorem little_ofLittle (bytes : List UInt8) : little bytes.length (ofLittle bytes) = bytes := by
  induction bytes with
  | nil => rfl
  | cons byte rest ih =>
      have low := byte.toNat_lt
      have later : (byte.toNat + 256 * ofLittle rest) / 256 = ofLittle rest := by omega
      have first : UInt8.ofNat (byte.toNat + 256 * ofLittle rest) = byte := by
        apply UInt8.toNat_inj.mp
        rw [UInt8.toNat_ofNat']
        omega
      rw [ofLittle, List.length_cons, little, later, first, ih]

/-- Any bytes are those of the number read from them. -/
theorem truncated_ofLittle (bytes : List UInt8) : truncated bytes.length (ofLittle bytes) = bytes := by
  have bounded : (ofLittle bytes : Int) < 256 ^ bytes.length := by
    exact_mod_cast ofLittle_bounded bytes
  rw [truncated, Int.emod_eq_of_lt (Int.natCast_nonneg _) bounded, Int.toNat_natCast, little_ofLittle]

theorem truncated_signed (width : Nat) (value : Int) :
    truncated width (signed width value) = truncated width value := by
  unfold signed
  split
  · rw [truncated, truncated, Int.emod_emod_of_dvd _ (dvd_refl _)]
  · rw [truncated, truncated, Int.sub_emod_right, Int.emod_emod_of_dvd _ (dvd_refl _)]

theorem signed_bounded {width : Nat} (wide : width ≠ 0) (value : Int) :
    -(256 ^ width / 2) ≤ signed width value ∧ signed width value < 256 ^ width / 2 := by
  obtain ⟨half, whole⟩ : ∃ half : Int, (256 : Int) ^ width = 2 * half := by
    obtain ⟨less, rfl⟩ := Nat.exists_eq_succ_of_ne_zero wide
    exact ⟨128 * 256 ^ less, by rw [pow_succ]; ring⟩
  have positive : (0 : Int) < 256 ^ width := by positivity
  have nonneg := Int.emod_nonneg value positive.ne'
  have below := Int.emod_lt_of_pos value positive
  have middle : (256 : Int) ^ width / 2 = half := by
    rw [whole]
    exact Int.mul_ediv_cancel_left half (by decide)
  rw [signed, middle]
  split <;> omega

end QuantArena.Foundations.Bytes
