import QuantArena.Exchange.Quantities
import QuantArena.Matcher.Runs

/-! No quantity is lost or made up: what an order was accepted for is filled,
cancelled or still resting. -/

set_option autoImplicit false

namespace QuantArena.Matcher

open Foundations Foundations.PriceTime Contracts Exchange

namespace NaiveMatcher

/-- What an order still has resting in its book, if it is live. -/
def restingQty (matcher : NaiveMatcher) (orderId : Int) : Int :=
  match matcher.byOrderId.get? orderId with
  | none => 0
  | some live => matcher.remainingQty live

theorem Represents.restingQty_eq {matcher : NaiveMatcher} {market : Market}
    (represents : matcher.Represents market) (valid : market.Valid) (orderId : Int) :
    matcher.restingQty orderId = market.tape.restingQty orderId := by
  unfold restingQty
  cases found : matcher.byOrderId.get? orderId with
  | none =>
      refine (Tape.restingQty_absent ?_).symm
      intro order member same
      obtain ⟨live, present, -⟩ := represents.find member
      rw [same, found] at present
      cases present
  | some live =>
      have member := represents.mem_live.mpr ⟨live, mem_values_of_get? found, rfl⟩
      rw [← represents.keyed orderId live found]
      exact (Tape.restingQty_of_mem valid.tape member).symm

/-- Of every accepted order, at every point of every run: its quantity is accounted for, it is
cancelled at most once and only if not filled, and nothing fills it after that. -/
theorem quantities_conserved (initialCashTicks : Int) (records : List Inbound) :
    ∃ matcher outputs, (new 1 initialCashTicks).applyAll records = .ok (matcher, outputs) ∧
      ∀ accepted, .orderAccepted accepted ∈ outputs →
        accepted.qty = (outputs.map (filledQty accepted.orderId)).sum +
          (outputs.map (cancelledQty accepted.orderId)).sum +
          matcher.restingQty accepted.orderId ∧
        outputs.countP (isCancellation accepted.orderId) ≤ 1 ∧
        ((outputs.map (filledQty accepted.orderId)).sum = accepted.qty →
          outputs.countP (isCancellation accepted.orderId) = 0) ∧
        ∀ before cancelled after, outputs = before ++ .orderCancelled cancelled :: after →
          cancelled.orderId = accepted.orderId → ∀ fill, .fill fill ∈ after →
            fill.makerOrderId ≠ accepted.orderId ∧ fill.takerOrderId ≠ accepted.orderId := by
  obtain ⟨matcher, finished, represents, -⟩ := fresh_run initialCashTicks records
  obtain ⟨lawful, read⟩ := Market.run_lawful initialCashTicks Market.fresh_valid records
  have valid := Market.run_valid initialCashTicks Market.fresh_valid records
  refine ⟨matcher, _, finished, ?_⟩
  generalize (Market.fresh.run initialCashTicks records).2 = outputs at lawful read
  have start : Market.fresh.tape = Tape.blank := rfl
  rw [start] at lawful read
  intro accepted member
  have rests := represents.restingQty_eq valid accepted.orderId
  have nonneg := Tape.restingQty_nonneg valid.tape accepted.orderId
  have whole := lawful.quantities Tape.blank_valid accepted.orderId
  have empty : Tape.blank.restingQty accepted.orderId = 0 := rfl
  rw [lawful.acceptedQty_sum member, read, empty, ← rests, Int.zero_add] at whole
  rw [← rests] at nonneg
  refine ⟨whole, lawful.cancelled_once Tape.blank_valid _, ?_, ?_⟩
  · intro filled
    rw [List.countP_eq_zero]
    intro record recordMember cancels
    have signs := lawful.cancelledQty_pos Tape.blank_valid accepted.orderId
    have positive := (signs record recordMember).2 cancels
    have within : cancelledQty accepted.orderId record ≤
        (outputs.map (cancelledQty accepted.orderId)).sum := by
      apply List.single_le_sum _ _ (List.mem_map_of_mem recordMember)
      intro amount amountMember
      obtain ⟨other, otherMember, rfl⟩ := List.mem_map.mp amountMember
      exact (signs other otherMember).1
    omega
  · rintro before cancelled after rfl same fill fillMember
    rw [← same]
    have validBefore := Tape.blank_valid.readAll (Tape.lawfulAll_append.mp lawful).1
    obtain ⟨early, late, rfl⟩ := List.append_of_mem fillMember
    have whole := (Tape.lawfulAll_append.mp lawful).2
    obtain ⟨lawfulEarly, lawfulFill, -⟩ := Tape.lawfulAll_append.mp whole.2
    exact ((validBefore.gone_of_cancelled whole.1).readAll lawfulEarly).not_traded lawfulFill

end NaiveMatcher

end QuantArena.Matcher
