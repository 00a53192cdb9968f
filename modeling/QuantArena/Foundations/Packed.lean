import Mathlib.Data.List.Forall2
import QuantArena.Foundations.Bytes

/-! Integers of fixed widths packed one after the other, without gaps: where each one lies, and
that reading them back gives what was written. -/

set_option autoImplicit false

namespace QuantArena.Foundations

/-- An integer of `width` bytes, little-endian, with or without a sign. -/
structure IntFormat where
  width : Nat
  signed : Bool
deriving DecidableEq, Repr

namespace IntFormat

def Fits (format : IntFormat) (value : Int) : Prop :=
  if format.signed then -(256 ^ format.width / 2) ≤ value ∧ value < 256 ^ format.width / 2
  else 0 ≤ value ∧ value < 256 ^ format.width

instance (format : IntFormat) (value : Int) : Decidable (format.Fits value) := by
  unfold Fits
  infer_instance

def pack (format : IntFormat) (value : Int) : Except Fault (List UInt8) :=
  if format.signed then Bytes.packSigned format.width value
  else Bytes.packUnsigned format.width value

def take (format : IntFormat) (data : List UInt8) : Int × List UInt8 :=
  if format.signed then Bytes.takeSigned format.width data else Bytes.takeUnsigned format.width data

variable {format : IntFormat} {value : Int} {bytes : List UInt8}

theorem pack_eq_ok :
    format.pack value = .ok bytes ↔ format.Fits value ∧ bytes = Bytes.truncated format.width value := by
  unfold pack Fits
  split
  · exact Bytes.packSigned_eq_ok
  · exact Bytes.packUnsigned_eq_ok

theorem take_truncated (wide : format.width ≠ 0) (fits : format.Fits value) (rest : List UInt8) :
    format.take (Bytes.truncated format.width value ++ rest) = (value, rest) := by
  unfold take
  unfold Fits at fits
  split
  · rename_i signed
    rw [if_pos signed] at fits
    rw [Bytes.takeSigned_truncated, Bytes.signed_of_fits wide fits]
  · rename_i unsigned
    rw [if_neg unsigned] at fits
    rw [Bytes.takeUnsigned_truncated, Bytes.unsigned_of_fits fits]

/-- What is read off any bytes fits, and packs to those bytes. -/
theorem pack_take (wide : format.width ≠ 0) {data : List UInt8} (enough : format.width ≤ data.length) :
    format.Fits (format.take data).1 ∧
      Bytes.truncated format.width (format.take data).1 = data.take format.width := by
  have length : (data.take format.width).length = format.width := List.length_take_of_le enough
  have whole := Bytes.truncated_ofLittle (data.take format.width)
  rw [length] at whole
  unfold take Fits
  split
  · exact ⟨Bytes.signed_bounded wide _, (Bytes.truncated_signed _ _).trans whole⟩
  · have bounded := Bytes.ofLittle_bounded (data.take format.width)
    rw [length] at bounded
    have below : (Bytes.ofLittle (data.take format.width) : Int) < 256 ^ format.width := by
      exact_mod_cast bounded
    exact ⟨⟨Int.natCast_nonneg _, below⟩, whole⟩

theorem take_rest (format : IntFormat) (data : List UInt8) :
    (format.take data).2 = data.drop format.width := by
  unfold take
  split <;> rfl

theorem fits_zero (wide : format.width ≠ 0) : format.Fits 0 := by
  obtain ⟨less, width⟩ := Nat.exists_eq_succ_of_ne_zero wide
  have half : (256 : Int) ^ format.width / 2 = 128 * 256 ^ less := by
    have twice : (256 : Int) ^ format.width = 2 * (128 * 256 ^ less) := by
      rw [width, pow_succ]
      ring
    rw [twice]
    exact Int.mul_ediv_cancel_left _ (by decide)
  have positive : (0 : Int) < 128 * 256 ^ less := by positivity
  unfold Fits
  split
  · rw [half]
    omega
  · exact ⟨le_rfl, by positivity⟩

end IntFormat

/-! ## Several in a row -/

def packAll : List IntFormat → List Int → Except Fault (List UInt8)
  | [], [] => .ok []
  | format :: formats, value :: values => do
      let first ← format.pack value
      let rest ← packAll formats values
      .ok (first ++ rest)
  | _, _ => .error .outOfRange

def takeAll : List IntFormat → List UInt8 → List Int
  | [], _ => []
  | format :: formats, data => (format.take data).1 :: takeAll formats (format.take data).2

/-- Where each item begins, and where the last one ends. -/
def places : Nat → List Nat → List Nat
  | start, [] => [start]
  | start, width :: widths => start :: places (start + width) widths

variable {formats : List IntFormat} {values : List Int} {bytes : List UInt8}

theorem packAll_eq_ok : packAll formats values = .ok bytes ↔
    List.Forall₂ IntFormat.Fits formats values ∧
      bytes = (List.zipWith (fun format value => Bytes.truncated format.width value)
        formats values).flatten := by
  induction formats generalizing values bytes with
  | nil =>
      cases values with
      | nil => simp [packAll, eq_comm]
      | cons value values => simp [packAll]
  | cons format formats ih =>
      cases values with
      | nil => simp [packAll]
      | cons value values =>
          rw [packAll, Fault.bind_eq_ok, List.forall₂_cons]
          constructor
          · rintro ⟨first, packed, rest⟩
            obtain ⟨later, others, same⟩ := Fault.bind_eq_ok.mp rest
            obtain ⟨fits, rfl⟩ := IntFormat.pack_eq_ok.mp packed
            obtain ⟨fit, rfl⟩ := ih.mp others
            cases same
            exact ⟨⟨fits, fit⟩, rfl⟩
          · rintro ⟨⟨fits, fit⟩, rfl⟩
            exact ⟨_, IntFormat.pack_eq_ok.mpr ⟨fits, rfl⟩,
              Fault.bind_eq_ok.mpr ⟨_, ih.mpr ⟨fit, rfl⟩, rfl⟩⟩

/-- What was packed is taken back as it was. -/
theorem takeAll_of_packAll (wide : ∀ format ∈ formats, format.width ≠ 0)
    (packed : packAll formats values = .ok bytes) : takeAll formats bytes = values := by
  obtain ⟨fits, rfl⟩ := packAll_eq_ok.mp packed
  clear packed
  induction fits with
  | nil => rfl
  | cons fit fits ih =>
      rw [List.zipWith_cons_cons, List.flatten_cons, takeAll,
        IntFormat.take_truncated (wide _ List.mem_cons_self) fit,
        ih fun format member => wide format (List.mem_cons_of_mem _ member)]

/-- What is taken of any bytes packs to those bytes. -/
theorem packAll_takeAll (wide : ∀ format ∈ formats, format.width ≠ 0)
    (length : bytes.length = (formats.map (·.width)).sum) :
    packAll formats (takeAll formats bytes) = .ok bytes := by
  induction formats generalizing bytes with
  | nil =>
      cases bytes with
      | nil => rfl
      | cons byte rest => cases length
  | cons format formats ih =>
      rw [List.map_cons, List.sum_cons] at length
      obtain ⟨fits, whole⟩ := IntFormat.pack_take (wide format List.mem_cons_self)
        (show format.width ≤ bytes.length by omega)
      have left : (format.take bytes).2.length = (formats.map (·.width)).sum := by
        rw [IntFormat.take_rest, List.length_drop]
        omega
      have rest := ih (fun other member => wide other (List.mem_cons_of_mem _ member)) left
      rw [takeAll, packAll, IntFormat.pack_eq_ok.mpr ⟨fits, rfl⟩]
      simp only [Fault.ok_bind, rest]
      rw [whole, IntFormat.take_rest, List.take_append_drop]

theorem length_of_packAll (packed : packAll formats values = .ok bytes) :
    bytes.length = (formats.map (·.width)).sum := by
  obtain ⟨fits, rfl⟩ := packAll_eq_ok.mp packed
  clear packed
  induction fits with
  | nil => rfl
  | cons fit fits ih =>
      rw [List.zipWith_cons_cons, List.flatten_cons, List.length_append, ih, List.map_cons,
        List.sum_cons, Bytes.length_truncated]

/-! ## Places -/

@[simp] theorem length_places (start : Nat) (widths : List Nat) :
    (places start widths).length = widths.length + 1 := by
  induction widths generalizing start with
  | nil => rfl
  | cons width widths ih => rw [places, List.length_cons, ih, List.length_cons]

theorem head?_places (start : Nat) (widths : List Nat) : (places start widths).head? = some start := by
  cases widths with
  | nil => rfl
  | cons width widths => rfl

/-- The places tell the widths. -/
theorem places_inj {start : Nat} {left right : List Nat}
    (same : places start left = places start right) : left = right := by
  induction left generalizing start right with
  | nil =>
      cases right with
      | nil => rfl
      | cons width widths =>
          have lengths := congrArg List.length same
          simp at lengths
  | cons width widths ih =>
      cases right with
      | nil =>
          have lengths := congrArg List.length same
          simp at lengths
      | cons other others =>
          have rest := (List.cons.inj same).2
          have first := congrArg List.head? rest
          rw [head?_places, head?_places] at first
          obtain rfl : width = other := Nat.add_left_cancel (Option.some.inj first)
          rw [ih rest]

theorem places_getElem? (start : Nat) {widths : List Nat} {index : Nat}
    (within : index ≤ widths.length) :
    (places start widths)[index]? = some (start + (widths.take index).sum) := by
  induction widths generalizing start index with
  | nil =>
      obtain rfl : index = 0 := Nat.le_zero.mp within
      rfl
  | cons width widths ih =>
      cases index with
      | zero => rfl
      | succ index =>
          rw [places, List.getElem?_cons_succ, ih _ (Nat.le_of_succ_le_succ within),
            List.take_succ_cons, List.sum_cons, Nat.add_assoc]

end QuantArena.Foundations
