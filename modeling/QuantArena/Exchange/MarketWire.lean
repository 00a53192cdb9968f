import QuantArena.Exchange.MarketProperties

/-! The widths of the wire layout as a bound on the market: what the records of a
stream can hold, the live orders they lead to can hold. -/

set_option autoImplicit false

namespace QuantArena.Exchange

open Foundations Foundations.PriceTime Contracts

/-- The ids are `uint64`, the symbol `int16`, prices, quantities and times `int64`. -/
structure SubmitOnWire (order : SubmitOrder) : Prop where
  clientOrderId : 0 ≤ order.clientOrderId ∧ order.clientOrderId < 256 ^ 8
  userId : 0 ≤ order.userId ∧ order.userId < 256 ^ 8
  symbolId : -(256 ^ 2 / 2) ≤ order.symbolId ∧ order.symbolId < 256 ^ 2 / 2
  priceTicks : order.priceTicks < 256 ^ 8 / 2
  qty : order.qty < 256 ^ 8 / 2
  timestampNs : -(256 ^ 8 / 2) ≤ order.timestampNs ∧ order.timestampNs < 256 ^ 8 / 2

/-- Only a submission leaves anything of itself in an engine. -/
def OnWire : Inbound → Prop
  | .submitOrder order => SubmitOnWire order
  | _ => True

structure LiveOnWire (order : LiveOrder) : Prop where
  clientOrderId : 0 ≤ order.ticket.clientOrderId ∧ order.ticket.clientOrderId < 256 ^ 8
  userId : 0 ≤ order.ticket.userId ∧ order.ticket.userId < 256 ^ 8
  symbolId : -(256 ^ 2 / 2) ≤ order.ticket.symbolId ∧ order.ticket.symbolId < 256 ^ 2 / 2
  price : order.price < 256 ^ 8 / 2
  remaining : order.remaining < 256 ^ 8 / 2
  createdAtNs : -(256 ^ 8 / 2) ≤ order.ticket.createdAtNs ∧
    order.ticket.createdAtNs < 256 ^ 8 / 2

theorem LiveOnWire.lessened {order : LiveOrder} (onWire : LiveOnWire order) {remaining : Int}
    (less : remaining ≤ order.remaining) : LiveOnWire { order with remaining } :=
  { onWire with remaining := lt_of_le_of_lt less onWire.remaining }

namespace Market

variable {market : Market}

theorem submit_onWire (valid : market.Valid) (onWire : ∀ order ∈ market.tape.live, LiveOnWire order)
    {order : SubmitOrder} (wire : SubmitOnWire order) :
    ∀ live ∈ (market.submit order).1.tape.live, LiveOnWire live := by
  unfold submit
  cases admitted : admission order with
  | error reason => exact onWire
  | ok choice =>
      obtain ⟨side, tif⟩ := choice
      simp only
      have takerWire : LiveOnWire (market.takerOf order side) := ⟨wire.clientOrderId, wire.userId,
        wire.symbolId, wire.priceTicks, wire.qty, wire.timestampNs⟩
      have run := execute_executes (market.takerOf order side)
        (onSymbol order.symbolId market.tape.live)
      generalize execute (market.takerOf order side) (onSymbol order.symbolId market.tape.live) =
        result at run
      obtain ⟨distinct, sound⟩ := makers_listed valid.tape.wellFormed run
      have taken := drawn_nonneg fun trade member => (sound trade member).2.2.1
      intro live member
      cases List.mem_append.mp member with
      | inl old =>
          rw [settle_eq_filterMap distinct valid.tape.wellFormed.positive, List.mem_filterMap] at old
          obtain ⟨before, beforeMember, kept⟩ := old
          simp only [reduceOne, if_true] at kept
          split at kept
          · cases kept
          · cases kept
            have lessened := taken before.id
            exact (onWire before beforeMember).lessened (by omega)
      | inr new =>
          split at new
          · rw [(mem_standing.mp new).1, run.taker_eq]
            exact takerWire.lessened (run.remaining_le (valid.tape.wellFormed.filter _))
          · cases new

theorem cancel_onWire (onWire : ∀ order ∈ market.tape.live, LiveOnWire order)
    (request : CancelOrder) : ∀ live ∈ (market.cancel request).1.tape.live, LiveOnWire live := by
  unfold cancel
  split
  · exact onWire
  · exact fun live member => onWire live (List.mem_of_mem_filter member)

theorem apply_onWire (cash : Int) (valid : market.Valid)
    (onWire : ∀ order ∈ market.tape.live, LiveOnWire order) {record : Inbound}
    (wire : OnWire record) : ∀ live ∈ (market.apply cash record).1.tape.live, LiveOnWire live := by
  cases record with
  | submitOrder order => exact submit_onWire valid onWire wire
  | cancelOrder request => exact cancel_onWire onWire request
  | _ => exact onWire

theorem run_onWire (cash : Int) (valid : market.Valid)
    (onWire : ∀ order ∈ market.tape.live, LiveOnWire order) {records : List Inbound}
    (wire : ∀ record ∈ records, OnWire record) :
    ∀ live ∈ (market.run cash records).1.tape.live, LiveOnWire live := by
  induction records generalizing market with
  | nil => exact onWire
  | cons record rest ih =>
      obtain ⟨first, later⟩ := List.forall_mem_cons.mp wire
      exact ih (apply_valid cash valid record) (apply_onWire cash valid onWire first) later

/-! ## Order ids -/

/-- A record takes at most one order id, and only a submission takes one. -/
theorem apply_nextOrderId (cash : Int) (market : Market) (record : Inbound) :
    (market.apply cash record).1.tape.nextOrderId = market.tape.nextOrderId ∨
      (∃ order, record = .submitOrder order) ∧
        (market.apply cash record).1.tape.nextOrderId = market.tape.nextOrderId + 1 := by
  cases record with
  | submitOrder order =>
      simp only [apply, submit]
      split
      · exact .inl rfl
      · exact .inr ⟨⟨order, rfl⟩, rfl⟩
  | cancelOrder request =>
      simp only [apply, cancel]
      split <;> exact .inl rfl
  | _ => exact .inl rfl

/-- The submissions of a stream. -/
def submissions (records : List Inbound) : List SubmitOrder :=
  records.filterMap fun
    | .submitOrder order => some order
    | _ => none

theorem run_nextOrderId (cash : Int) (market : Market) (records : List Inbound) :
    market.tape.nextOrderId ≤ (market.run cash records).1.tape.nextOrderId ∧
      (market.run cash records).1.tape.nextOrderId ≤
        market.tape.nextOrderId + (submissions records).length := by
  induction records generalizing market with
  | nil => exact ⟨le_rfl, by simp [run, submissions]⟩
  | cons record rest ih =>
      obtain ⟨least, most⟩ := ih (market.apply cash record).1
      have whole : (market.run cash (record :: rest)).1 =
          ((market.apply cash record).1.run cash rest).1 := rfl
      rw [whole]
      cases apply_nextOrderId cash market record with
      | inl same =>
          have longer : (submissions rest).length ≤ (submissions (record :: rest)).length :=
            ((List.sublist_cons_self record rest).filterMap _).length_le
          omega
      | inr more =>
          obtain ⟨⟨order, rfl⟩, next⟩ := more
          have longer : (submissions (.submitOrder order :: rest)).length =
            (submissions rest).length + 1 := rfl
          omega

end Market

end QuantArena.Exchange
