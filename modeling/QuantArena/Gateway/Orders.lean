import QuantArena.Gateway.Risk

/-! The order routes between two awaits: what `submit_order` and `cancel_order` do
with what they know, without letting another request in. -/

set_option autoImplicit false

namespace QuantArena.Gateway

open Foundations Contracts

structure Settings where
  symbols : List Int
  marketOrderBandBps : Int
  widens : 0 ≤ marketOrderBandBps

inductive OrderType where
  | limit
  | market
deriving DecidableEq, Repr

/-- A request body that passed its validators. -/
structure SubmitOrderRequest where
  clientOrderId : Int
  symbolId : Int
  side : PriceTime.Side
  tif : Tif
  priceTicks : Option Int
  qty : Int
  orderType : OrderType
  clientOrderId_range : 0 ≤ clientOrderId ∧ clientOrderId < 2 ^ 64
  symbolId_range : 0 ≤ symbolId ∧ symbolId < 2 ^ 15
  priceTicks_range : ∀ price, priceTicks = some price → 0 < price ∧ price < 2 ^ 63
  qty_range : 0 < qty ∧ qty < 2 ^ 63
  price_matches_order_type : priceTicks.isSome = decide (orderType = .limit)

/-- What `submit_order` has come to once it has read the idempotency key. -/
inductive Decision where
  /-- The same key is in flight already. -/
  | inProgress
  | reject (reason : RejectReason)
  /-- The order to append, and the risk state that holds its reservation. -/
  | append (order : SubmitOrder) (risk : RiskState)

/-- The limit an order is sent with. -/
def SubmitOrderRequest.limit (body : SubmitOrderRequest) (settings : Settings) (risk : RiskState) :
    Option Int :=
  match body.orderType with
  | .limit => body.priceTicks
  | .market => risk.bandedMarketPrice body.symbolId (sideCode body.side) settings.marketOrderBandBps

/-- A market order never rests. -/
def SubmitOrderRequest.sentTif (body : SubmitOrderRequest) : Tif :=
  match body.orderType with
  | .limit => body.tif
  | .market => .ioc

/-- Steps 2 to 5 of `submit_order`, after a lookup that found nothing. -/
def SubmitOrderRequest.decide (body : SubmitOrderRequest) (settings : Settings) (risk : RiskState)
    (userId now : Int) : Decision :=
  if risk.pendingByClient.contains (userId, body.clientOrderId) then .inProgress
  else if body.symbolId ∉ settings.symbols then .reject .unknownSymbol
  else
    match body.limit settings risk with
    | none => .reject .invalidPrice
    | some priceTicks =>
        let side := sideCode body.side
        -- `reserve` begins with the check that the route makes just before it.
        match risk.reserve userId body.clientOrderId body.symbolId side priceTicks body.qty with
        | .error reason => .reject reason
        | .ok reserved => .append
            ⟨now, body.clientOrderId, userId, priceTicks, body.qty, body.symbolId, side,
              tifCode body.sentTif⟩ reserved

/-- `_abandon`: takes the pending entry back only if it is still this request's own. -/
def RiskState.abandon (risk : RiskState) (ref : Ref) : RiskState :=
  let reservation := risk.object ref
  let key := (reservation.userId, reservation.clientOrderId)
  let dropped :=
    if risk.pendingByClient.get? key = some ref then
      { risk with pendingByClient := risk.pendingByClient.erase key }
    else risk
  dropped.release reservation reservation.qty

/-- What the append of a reserving request sends is what it reserved for. -/
theorem SubmitOrderRequest.decide_append {body : SubmitOrderRequest} {settings : Settings}
    {risk reserved : RiskState} {userId now : Int} {order : SubmitOrder}
    (decided : body.decide settings risk userId now = .append order reserved) :
    risk.pendingByClient.get? (order.userId, order.clientOrderId) = none ∧
      order.userId = userId ∧ order.clientOrderId = body.clientOrderId ∧
      order.side = sideCode body.side ∧ order.qty = body.qty ∧
      body.limit settings risk = some order.priceTicks ∧
      risk.reserve order.userId order.clientOrderId order.symbolId order.side order.priceTicks
        order.qty = .ok reserved := by
  unfold SubmitOrderRequest.decide at decided
  split at decided
  · cases decided
  · rename_i absent
    split at decided
    · cases decided
    · cases limit : body.limit settings risk with
      | none =>
          simp only [limit] at decided
          cases decided
      | some priceTicks =>
          simp only [limit] at decided
          split at decided
          · cases decided
          · rename_i result held
            cases decided
            have free := Dict.contains_eq_false_iff.mp (Bool.eq_false_iff.mpr absent)
            exact ⟨free, rfl, rfl, rfl, rfl, rfl, held⟩

theorem SubmitOrderRequest.decide_tif {body : SubmitOrderRequest} {settings : Settings}
    {risk reserved : RiskState} {userId now : Int} {order : SubmitOrder}
    (decided : body.decide settings risk userId now = .append order reserved) :
    order.tif = tifCode body.sentTif := by
  unfold SubmitOrderRequest.decide at decided
  split at decided
  · cases decided
  · split at decided
    · cases decided
    · split at decided
      · cases decided
      · simp only at decided
        split at decided
        · cases decided
        · cases decided
          rfl

end QuantArena.Gateway
