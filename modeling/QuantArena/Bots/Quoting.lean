import Mathlib.Algebra.Order.Ring.Int
import Mathlib.Tactic.Linarith
import QuantArena.Contracts.Records
import QuantArena.Foundations.Dict

/-! The market maker's quote, and the meter of its obligations. The quote takes its spread from
the fair value, and the meter measures it against the mid that is quoted. -/

set_option autoImplicit false

namespace QuantArena.Bots

open Foundations Contracts

/-- Basis points per unit. -/
def bps : Int := 10000

/-- One side of a two-sided market. -/
structure Quote where
  side : Int
  priceTicks : Int
  qty : Int
deriving DecidableEq, Repr

structure TwoSidedQuote where
  bid : Quote
  ask : Quote
deriving DecidableEq, Repr

namespace TwoSidedQuote

def spreadTicks (quote : TwoSidedQuote) : Int := quote.ask.priceTicks - quote.bid.priceTicks

def midTicks (quote : TwoSidedQuote) : Int := (quote.ask.priceTicks + quote.bid.priceTicks) / 2

end TwoSidedQuote

/-- At least one tick. -/
def halfSpread (fairValueTicks halfSpreadBps : Int) : Int :=
  max 1 (fairValueTicks * halfSpreadBps / bps)

/-- The fair value less the skew, which is as large for a short position as for a long one. -/
def skewedMid (fairValueTicks inventory skewBps size : Int) : Int :=
  let magnitude := fairValueTicks * skewBps * |inventory| / (max 1 size * bps)
  fairValueTicks - if inventory < 0 then -magnitude else magnitude

/-- A bid at `mid - halfSpread`, an ask at `mid + halfSpread`, both of at least one tick. -/
def quoteAround (mid halfSpread size : Int) : TwoSidedQuote :=
  let bidPrice := max 1 (mid - halfSpread)
  let askPrice := max (bidPrice + 1) (mid + halfSpread)
  ⟨⟨sideCode .buy, bidPrice, size⟩, ⟨sideCode .sell, askPrice, size⟩⟩

def desiredQuote (fairValueTicks inventory halfSpreadBps skewBps size : Int) : TwoSidedQuote :=
  quoteAround (skewedMid fairValueTicks inventory skewBps size)
    (halfSpread fairValueTicks halfSpreadBps) size

/-! ## Obligations -/

inductive BreachKind where
  | spreadTooWide
  | sizeTooSmall
  | notTwoSided
deriving DecidableEq, Repr

/-- The fields of `detail`, by the kind of the breach. -/
inductive Detail where
  | spread (spreadBps limitBps : Int)
  | size (side : String) (qty minimum : Int)
  | reason (text : String)
deriving DecidableEq, Repr

structure Breach where
  kind : BreachKind
  symbolId : Int
  detail : Detail
deriving DecidableEq, Repr

structure ObligationLimits where
  maxSpreadBps : Int
  minQuoteSize : Int
deriving DecidableEq, Repr

structure ObligationMeter where
  symbolId : Int
  limits : ObligationLimits
  samples : Int
  twoSidedSamples : Int
  breaches : List Breach
  breachCounts : Dict BreachKind Int

namespace ObligationMeter

def spreadBreaches (meter : ObligationMeter) (quote : TwoSidedQuote) : List Breach :=
  let mid := quote.midTicks
  if mid > 0 then
    let spreadBps := quote.spreadTicks * bps / mid
    if spreadBps > meter.limits.maxSpreadBps then
      [⟨.spreadTooWide, meter.symbolId, .spread spreadBps meter.limits.maxSpreadBps⟩]
    else []
  else []

def sizeBreaches (meter : ObligationMeter) (quote : TwoSidedQuote) : List Breach :=
  [("bid", quote.bid), ("ask", quote.ask)].flatMap fun side =>
    if side.2.qty < meter.limits.minQuoteSize then
      [⟨.sizeTooSmall, meter.symbolId, .size side.1 side.2.qty meter.limits.minQuoteSize⟩]
    else []

/-- The breaches of one sample. -/
def found (meter : ObligationMeter) : Option TwoSidedQuote → List Breach
  | none => [⟨.notTwoSided, meter.symbolId, .reason "no two-sided quote"⟩]
  | some quote => meter.spreadBreaches quote ++ meter.sizeBreaches quote

/-- One sample: what it records, and what it returns to be logged. -/
def observe (meter : ObligationMeter) (quote : Option TwoSidedQuote) :
    ObligationMeter × List Breach :=
  let found := meter.found quote
  ({ meter with
    samples := meter.samples + 1
    twoSidedSamples := meter.twoSidedSamples + if quote.isSome then 1 else 0
    breaches := meter.breaches ++ found
    breachCounts := found.foldl (fun counts breach => counts.add breach.kind 1)
      meter.breachCounts }, found)

end ObligationMeter

/-! ## What a quote can breach -/

section Quote

variable {mid half size : Int}

theorem quoteAround_clear (quotes : half < mid) (least : 1 ≤ half) :
    (quoteAround mid half size).spreadTicks = 2 * half ∧
      (quoteAround mid half size).midTicks = mid := by
  have bid : max 1 (mid - half) = mid - half := max_eq_right (by omega)
  have ask : max (mid - half + 1) (mid + half) = mid + half := max_eq_right (by omega)
  simp only [quoteAround, TwoSidedQuote.spreadTicks, TwoSidedQuote.midTicks, bid, ask]
  omega

/-- Where the bid is held at one tick. -/
theorem quoteAround_floored (floored : mid ≤ half) :
    (quoteAround mid half size).spreadTicks = max 2 (mid + half) - 1 ∧
      (quoteAround mid half size).midTicks = (max 2 (mid + half) + 1) / 2 := by
  have bid : max 1 (mid - half) = 1 := max_eq_left (by omega)
  simp only [quoteAround, TwoSidedQuote.spreadTicks, TwoSidedQuote.midTicks, bid]
  exact ⟨rfl, rfl⟩

end Quote

/-- The spread fits its limit at the mid that is quoted. -/
def Narrow (limitBps mid half : Int) : Prop :=
  if half < mid then 2 * half * bps < (limitBps + 1) * mid
  else (max 2 (mid + half) - 1) * bps < (limitBps + 1) * ((max 2 (mid + half) + 1) / 2)

namespace ObligationMeter

variable {meter : ObligationMeter} {quote : TwoSidedQuote}

theorem spreadBreaches_eq_nil_iff (positive : 0 < quote.midTicks) :
    meter.spreadBreaches quote = [] ↔
      quote.spreadTicks * bps < (meter.limits.maxSpreadBps + 1) * quote.midTicks := by
  have wide : meter.limits.maxSpreadBps < quote.spreadTicks * bps / quote.midTicks ↔
      (meter.limits.maxSpreadBps + 1) * quote.midTicks ≤ quote.spreadTicks * bps :=
    Int.add_one_le_iff.symm.trans (Int.le_ediv_iff_mul_le positive)
  unfold spreadBreaches
  simp only [gt_iff_lt, positive, if_true, wide]
  split
  · rename_i breached
    simp [not_lt.mpr breached]
  · rename_i fits
    simp [not_le.mp fits]

theorem sizeBreaches_eq_nil (bid : meter.limits.minQuoteSize ≤ quote.bid.qty)
    (ask : meter.limits.minQuoteSize ≤ quote.ask.qty) : meter.sizeBreaches quote = [] := by
  simp [sizeBreaches, not_lt.mpr bid, not_lt.mpr ask]

theorem kind_of_spreadBreaches {breach : Breach} (member : breach ∈ meter.spreadBreaches quote) :
    breach.kind = .spreadTooWide := by
  unfold spreadBreaches at member
  simp only at member
  split at member
  · split at member
    · rw [List.mem_singleton.mp member]
    · cases member
  · cases member

variable {mid half size : Int}

theorem spreadBreaches_quoteAround (least : 1 ≤ half) :
    meter.spreadBreaches (quoteAround mid half size) = [] ↔
      Narrow meter.limits.maxSpreadBps mid half := by
  unfold Narrow
  split
  · rename_i clear
    obtain ⟨spread, quoted⟩ := @quoteAround_clear mid half size clear least
    rw [spreadBreaches_eq_nil_iff (by omega), spread, quoted]
  · rename_i floored
    obtain ⟨spread, quoted⟩ := @quoteAround_floored mid half size (not_lt.mp floored)
    have ask : 2 ≤ max 2 (mid + half) := le_max_left _ _
    rw [spreadBreaches_eq_nil_iff (by omega), spread, quoted]

end ObligationMeter

/-- Who is not long quotes around the fair value or more. -/
theorem fairValue_le_skewedMid {fairValue inventory skewBps : Int} (size : Int)
    (fair : 0 ≤ fairValue) (skewed : 0 ≤ skewBps) (short : inventory ≤ 0) :
    fairValue ≤ skewedMid fairValue inventory skewBps size := by
  unfold skewedMid
  simp only
  split
  · have magnitude : 0 ≤ fairValue * skewBps * |inventory| / (max 1 size * bps) :=
      Int.ediv_nonneg (Int.mul_nonneg (Int.mul_nonneg fair skewed) (abs_nonneg _))
        (Int.mul_nonneg (zero_le_one.trans (le_max_left _ _)) (by decide))
    omega
  · have flat : inventory = 0 := by omega
    simp [flat]

/-- A half spread that is not held at one tick fits the limit it is set for, from the fair value
on. -/
theorem narrow_of_fair {limitBps fairValue mid halfSpreadBps : Int} (fair : 1 ≤ fairValue)
    (configured : 2 * halfSpreadBps ≤ limitBps) (least : bps ≤ fairValue * halfSpreadBps)
    (quotes : fairValue ≤ mid) : Narrow limitBps mid (halfSpread fairValue halfSpreadBps) := by
  have exact_ : halfSpread fairValue halfSpreadBps = fairValue * halfSpreadBps / bps :=
    max_eq_right ((Int.le_ediv_iff_mul_le (by decide)).mpr (by rwa [one_mul]))
  have spread : halfSpread fairValue halfSpreadBps * bps ≤ fairValue * halfSpreadBps := by
    rw [exact_]
    exact Int.ediv_mul_le _ (by decide)
  have positive : 0 < halfSpreadBps := by
    by_contra none
    have most := Int.mul_nonpos_of_nonneg_of_nonpos (by omega : 0 ≤ fairValue) (not_lt.mp none)
    simp only [bps] at least
    omega
  unfold Narrow
  split
  · calc 2 * halfSpread fairValue halfSpreadBps * bps
        = 2 * (halfSpread fairValue halfSpreadBps * bps) := Int.mul_assoc ..
      _ ≤ 2 * (fairValue * halfSpreadBps) := by omega
      _ = 2 * halfSpreadBps * fairValue := by ring
      _ ≤ limitBps * mid := Int.mul_le_mul configured quotes (by omega) (by omega)
      _ < (limitBps + 1) * mid := by rw [Int.add_mul]; omega
  · rename_i wide
    -- A half spread of the whole mid takes a limit of 200%.
    have whole : bps ≤ halfSpreadBps := by
      have reach : fairValue * bps ≤ fairValue * halfSpreadBps :=
        (Int.mul_le_mul_of_nonneg_right (quotes.trans (not_lt.mp wide)) (by decide)).trans spread
      exact le_of_mul_le_mul_left reach (by omega)
    simp only [bps] at whole ⊢
    have two : 2 ≤ max 2 (mid + halfSpread fairValue halfSpreadBps) := le_max_left _ _
    generalize max 2 (mid + halfSpread fairValue halfSpreadBps) = ask at two ⊢
    have limit : 20001 * ((ask + 1) / 2) ≤ (limitBps + 1) * ((ask + 1) / 2) :=
      Int.mul_le_mul_of_nonneg_right (by omega) (by omega)
    omega

/-- What a quote breaches: never the size, where the size is configured to meet its minimum, and
the spread exactly where it does not fit the limit at the mid that is quoted. A maker that is not
long and whose half spread comes to a tick breaches nothing. -/
theorem quote_breaches_iff (meter : ObligationMeter)
    (fairValue inventory halfSpreadBps skewBps size : Int)
    (sized : meter.limits.minQuoteSize ≤ size) :
    let found := (meter.observe
      (some (desiredQuote fairValue inventory halfSpreadBps skewBps size))).2
    (∀ breach ∈ found, breach.kind ≠ .sizeTooSmall) ∧
      ((∀ breach ∈ found, breach.kind ≠ .spreadTooWide) ↔
        Narrow meter.limits.maxSpreadBps (skewedMid fairValue inventory skewBps size)
          (halfSpread fairValue halfSpreadBps)) ∧
      (1 ≤ fairValue → 0 ≤ skewBps → 2 * halfSpreadBps ≤ meter.limits.maxSpreadBps →
        inventory ≤ 0 → bps ≤ fairValue * halfSpreadBps → found = []) := by
  intro found
  have split : found = meter.spreadBreaches
      (desiredQuote fairValue inventory halfSpreadBps skewBps size) := by
    have sizes := @ObligationMeter.sizeBreaches_eq_nil meter
      (desiredQuote fairValue inventory halfSpreadBps skewBps size) sized sized
    exact (congrArg (_ ++ ·) sizes).trans (List.append_nil _)
  have fits := @ObligationMeter.spreadBreaches_quoteAround meter
    (skewedMid fairValue inventory skewBps size) (halfSpread fairValue halfSpreadBps) size
    (le_max_left _ _)
  rw [split]
  refine ⟨?_, ?_, ?_⟩
  · intro breach member
    rw [ObligationMeter.kind_of_spreadBreaches member]
    decide
  · rw [← fits]
    constructor
    · intro none
      refine List.eq_nil_iff_forall_not_mem.mpr fun breach member => ?_
      exact none breach member (ObligationMeter.kind_of_spreadBreaches member)
    · intro none breach member
      rw [desiredQuote, none] at member
      cases member
  · intro fair skewed configured short least
    exact fits.mpr (narrow_of_fair fair configured least
      (fairValue_le_skewedMid size (by omega) skewed short))

/-- The limits and the parameters that the repository ships. -/
def shippedMeter : ObligationMeter := ⟨1, ⟨50, 100⟩, 0, 0, [], .empty⟩

theorem shipped_quote_kept :
    (shippedMeter.observe (some (desiredQuote 1000 0 25 25 100))).2 = [] :=
  (quote_breaches_iff shippedMeter 1000 0 25 25 100 (by decide)).2.2 (by decide) (by decide)
    (by decide) (by decide) (by decide)

/-- At a fair value of 100 a spread of two ticks is 2%, and at 2000 a maker who is ten quotes long
quotes the spread of the fair value around a lower mid. -/
theorem configured_maker_breaches :
    (shippedMeter.observe (some (desiredQuote 100 0 25 25 100))).2 =
        [⟨.spreadTooWide, 1, .spread 200 50⟩] ∧
      (shippedMeter.observe (some (desiredQuote 2000 1000 25 25 100))).2 =
        [⟨.spreadTooWide, 1, .spread 51 50⟩] := by
  decide

end QuantArena.Bots
