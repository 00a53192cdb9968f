import QuantArena.Exchange.OpenOrders
import QuantArena.Ledger.Ledger

/-! The ledger's open orders are the orders live on the tape it reads. -/

set_option autoImplicit false

namespace QuantArena.Ledger

open Foundations Foundations.PriceTime Contracts Exchange

def OpenOrderRecord.shown (order : OpenOrderRecord) : OpenOrder where
  clientOrderId := order.clientOrderId
  userId := order.userId
  symbolId := order.symbolId
  side := order.side
  priceTicks := order.priceTicks
  remainingQty := order.remainingQty

theorem OpenOrderRecord.less_shown {order : OpenOrderRecord} {live : LiveOrder}
    (same : order.shown = openOrder live) (qty : Int) :
    (order.less qty).map shown = Mirrors.shownLeft openOrder qty live := by
  have quantity : order.remainingQty = live.remaining := congrArg OpenOrder.remainingQty same
  have left : OpenOrderRecord.shown { order with remainingQty := order.remainingQty - qty } =
      openOrder { live with remaining := live.remaining - qty } := by
    simp only [shown, openOrder, OpenOrder.mk.injEq] at same ⊢
    obtain ⟨client, user, symbol, side, price, remaining⟩ := same
    exact ⟨client, user, symbol, side, price, by rw [remaining]⟩
  unfold less Mirrors.shownLeft
  split
  · rename_i exhausted
    rw [if_pos (by omega), Option.map_none]
  · rename_i remains
    rw [if_neg (by omega), Option.map_some, left]

/-- The open orders are the tape's live orders, in the same order. -/
def Follows (ledger : Ledger) (tape : Tape) : Prop :=
  Mirrors ledger.openOrders OpenOrderRecord.shown tape.live openOrder

theorem new_follows : new.Follows .blank := Mirrors.empty

variable {ledger : Ledger} {tape : Tape}

/-- One order loses `qty`. -/
theorem alter_less {orders : Dict Int OpenOrderRecord} {live : List LiveOrder}
    (mirrors : Mirrors orders OpenOrderRecord.shown live openOrder) (orderId qty : Int) :
    Mirrors (orders.alter orderId (·.less qty)) OpenOrderRecord.shown (reduce orderId qty live)
      openOrder :=
  mirrors.alter (fun _ _ _ _ => rfl)
    fun _ _ _ _ _ same => OpenOrderRecord.less_shown same qty

theorem Follows.apply (follows : ledger.Follows tape) (valid : tape.Valid) {record : Outbound}
    (lawful : tape.Lawful record) (streamId : Option StreamId) :
    (ledger.apply record streamId).Follows (tape.read record) := by
  cases record with
  | orderAccepted accepted =>
      obtain ⟨order, live, sameId, shown, -, fresh⟩ := Tape.accepted_live valid lawful
      have same : (opened accepted).shown = openOrder order := shown.symm
      have added := Mirrors.set_newest follows fresh same
      rw [sameId, ← live] at added
      exact added
  | fill fill =>
      exact alter_less (alter_less follows fill.makerOrderId fill.qty) fill.takerOrderId fill.qty
  | orderCancelled cancelled =>
      obtain ⟨order, member, sameId, sameQty, -⟩ := lawful
      have reduced := alter_less follows cancelled.orderId cancelled.remainingQty
      rw [← sameId, ← sameQty, reduce_all valid.wellFormed member, sameId, sameQty] at reduced
      exact reduced
  | orderRejected _ => exact follows
  | bookChanged _ => exact follows
  | accountCreated _ => exact follows
  | cashCredited _ => exact follows
  | replayConfigured _ => exact follows

theorem Follows.applyAll (follows : ledger.Follows tape) (valid : tape.Valid)
    {events : List (Outbound × Option StreamId)} (lawful : tape.LawfulAll (events.map (·.1))) :
    (ledger.applyAll events).Follows (tape.readAll (events.map (·.1))) := by
  induction events generalizing ledger tape with
  | nil => exact follows
  | cons event rest ih =>
      exact ih (follows.apply valid lawful.1 event.2) (valid.read lawful.1) lawful.2

end QuantArena.Ledger
