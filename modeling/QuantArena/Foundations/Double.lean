import Mathlib.Algebra.Order.Floor.Ring
import Mathlib.Algebra.Order.Round
import Mathlib.Data.Int.Log
import Mathlib.Data.Rat.Floor
import Mathlib.Tactic.FieldSimp
import Mathlib.Tactic.Linarith
import Mathlib.Tactic.Positivity

/-! Numbers of a language whose only number is the double: 53 bits, to nearest, ties to even.
Overflow and subnormal numbers are left out. -/

set_option autoImplicit false

namespace QuantArena.Foundations.Double

/-- The nearest integer, the even one of two. -/
def nearestEven (x : ℚ) : Int :=
  if 2 * Int.fract x < 1 ∨ 2 * Int.fract x = 1 ∧ ⌊x⌋ % 2 = 0 then ⌊x⌋ else ⌊x⌋ + 1

/-- The unit in the last place of the doubles next to `x`. -/
def unit (x : ℚ) : ℚ := 2 ^ (Int.log 2 |x| - 52)

def round (x : ℚ) : ℚ := nearestEven (x / unit x) * unit x

/-- The integer that a double holds for `n`. -/
def ofInt (n : Int) : Int := ⌊round n⌋

/-- `Math.floor(x / d)`. -/
def floorDiv (x d : Int) : Int := ⌊round ((x : ℚ) / d)⌋

theorem unit_pos (x : ℚ) : 0 < unit x := zpow_pos (by norm_num) _

theorem nearestEven_intCast (n : Int) : nearestEven n = n := by
  simp [nearestEven]

theorem abs_nearestEven_sub_le (x : ℚ) : |(nearestEven x : ℚ) - x| ≤ 1 / 2 := by
  have parts := Int.floor_add_fract x
  have low := Int.fract_nonneg x
  have high := Int.fract_lt_one x
  unfold nearestEven
  split
  · rename_i down
    have half : 2 * Int.fract x ≤ 1 := down.elim le_of_lt fun tie => tie.1.le
    rw [abs_le]
    constructor <;> linarith
  · rename_i up
    have half : 1 ≤ 2 * Int.fract x := not_lt.mp fun less => up (.inl less)
    push_cast
    rw [abs_le]
    constructor <;> linarith

theorem abs_round_sub_le (x : ℚ) : |round x - x| ≤ unit x / 2 := by
  have positive := unit_pos x
  have scaled : round x - x = (nearestEven (x / unit x) - x / unit x) * unit x := by
    rw [round, sub_mul, div_mul_cancel₀ _ positive.ne']
  rw [scaled, abs_mul, abs_of_pos positive]
  calc |(nearestEven (x / unit x) : ℚ) - x / unit x| * unit x
      ≤ 1 / 2 * unit x := by gcongr; exact abs_nearestEven_sub_le _
    _ = unit x / 2 := by ring

/-- Where the unit is a whole fraction of one, integers are exact. -/
theorem round_intCast {n : Int} (small : |n| < 2 ^ 53) : round n = n := by
  by_cases zero : n = 0
  · simp [zero, round, nearestEven]
  have positive : (0 : ℚ) < |(n : ℚ)| := by
    rw [abs_pos]
    exact_mod_cast zero
  have bound : Int.log 2 |(n : ℚ)| ≤ 52 := by
    have less : |(n : ℚ)| < (2 : ℕ) ^ (53 : ℤ) := by
      have cast : |(n : ℚ)| < 2 ^ 53 := by exact_mod_cast small
      simpa using cast
    exact Int.lt_add_one_iff.mp ((Int.lt_zpow_iff_log_lt (by norm_num) positive).mp less)
  obtain ⟨shift, same⟩ := Int.eq_ofNat_of_zero_le (sub_nonneg.mpr bound)
  have unit_eq : unit n = (2 ^ shift : ℚ)⁻¹ := by
    have exponent : Int.log 2 |(n : ℚ)| - 52 = -(shift : ℤ) := by omega
    rw [unit, exponent, zpow_neg, zpow_natCast]
  have whole : (n : ℚ) / unit n = ((n * 2 ^ shift : Int) : ℚ) := by
    rw [unit_eq]
    push_cast
    field_simp
  rw [round, whole, nearestEven_intCast, ← whole, div_mul_cancel₀ _ (unit_pos _).ne']

theorem ofInt_of_small {n : Int} (small : |n| < 2 ^ 53) : ofInt n = n := by
  rw [ofInt, round_intCast small, Int.floor_intCast]

/-- Rounding is off by less than what separates a fraction over `d` from the next integer. -/
theorem unit_div_lt {x d : Int} (positive : 0 < d) (small : |x| < 2 ^ 53) (nonzero : x ≠ 0) :
    unit ((x : ℚ) / d) / 2 < 1 / d := by
  have divisor : (0 : ℚ) < d := by exact_mod_cast positive
  have quotient : (0 : ℚ) < |(x : ℚ) / d| := by
    rw [abs_pos]
    exact div_ne_zero (by exact_mod_cast nonzero) divisor.ne'
  have below : (2 : ℚ) ^ Int.log 2 |(x : ℚ) / d| ≤ |(x : ℚ) / d| := by
    simpa using Int.zpow_log_le_self (b := 2) (by norm_num) quotient
  have magnitude : |(x : ℚ) / d| = |(x : ℚ)| / d := by rw [abs_div, abs_of_pos divisor]
  have cast : |(x : ℚ)| < 2 ^ 53 := by exact_mod_cast small
  have split : unit ((x : ℚ) / d) = 2 ^ Int.log 2 |(x : ℚ) / d| / 2 ^ 52 := by
    rw [unit, zpow_sub₀ (by norm_num)]
    norm_num
  rw [split]
  calc (2 : ℚ) ^ Int.log 2 |(x : ℚ) / d| / 2 ^ 52 / 2
      ≤ |(x : ℚ)| / d / 2 ^ 52 / 2 := by
        rw [← magnitude]
        gcongr
    _ = |(x : ℚ)| / 2 ^ 53 / d := by ring
    _ < 1 / d := by
        gcongr
        rw [div_lt_one (by positivity)]
        exact cast

/-- The quotient of two integers is floored as if it were exact. -/
theorem floorDiv_of_small {x d : Int} (positive : 0 < d) (small : |x| < 2 ^ 53) :
    floorDiv x d = x / d := by
  have divisor : (0 : ℚ) < d := by exact_mod_cast positive
  have split : (x : ℚ) = d * (x / d : Int) + (x % d : Int) := by
    exact_mod_cast (Int.mul_ediv_add_emod x d).symm
  have less : x % d < d := Int.emod_lt_of_pos x positive
  have quotient : (x : ℚ) / d = (x / d : Int) + (x % d : Int) / d := by
    rw [eq_comm, ← sub_eq_zero]
    field_simp
    linarith
  by_cases whole : x % d = 0
  · have within : |x / d| < 2 ^ 53 := by
      have product : d * (x / d) = x := Int.mul_ediv_cancel_of_emod_eq_zero whole
      calc |x / d| ≤ d * |x / d| := le_mul_of_one_le_left (abs_nonneg _) positive
        _ = |x| := by rw [← abs_of_pos positive, ← abs_mul, abs_of_pos positive, product]
        _ < 2 ^ 53 := small
    rw [floorDiv, quotient, whole]
    simpa using congrArg Int.floor (round_intCast within)
  · have some_ : 0 < x % d := lt_of_le_of_ne (Int.emod_nonneg x positive.ne') (Ne.symm whole)
    have nonzero : x ≠ 0 := fun zero => whole (by simp [zero])
    have close := (abs_round_sub_le ((x : ℚ) / d)).trans_lt (unit_div_lt positive small nonzero)
    obtain ⟨low, high⟩ := abs_lt.mp close
    have first : (1 : ℚ) / d ≤ (x % d : Int) / d := by
      gcongr
      exact_mod_cast some_
    have last : ((x % d : Int) : ℚ) / d ≤ 1 - 1 / d := by
      rw [div_le_iff₀ divisor, sub_mul, div_mul_cancel₀ _ divisor.ne', one_mul]
      have next : x % d ≤ d - 1 := by omega
      exact_mod_cast next
    rw [floorDiv, Int.floor_eq_iff]
    constructor
    · linarith
    · linarith

end QuantArena.Foundations.Double
