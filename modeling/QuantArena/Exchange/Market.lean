import QuantArena.Exchange.Tape

/-! What a matching engine is for, with none of its containers: the live orders
of all symbols in arrival order, which of them a client can name, and the records
each inbound record must produce. -/

set_option autoImplicit false

namespace QuantArena.Exchange

open Foundations Foundations.PriceTime Contracts

structure Market where
  tape : Tape
  /-- The order a cancel by `(user, client order id)` reaches. -/
  indexed : Int × Int → Option Int

namespace Market

def fresh : Market := ⟨.blank, fun _ => none⟩

def admission (order : SubmitOrder) : Except RejectReason (Side × Tif) :=
  match sideOf? order.side, tifOf? order.tif with
  | none, _ => .error .invalidSide
  | _, none => .error .invalidTif
  | some side, some tif =>
      if order.priceTicks ≤ 0 then .error .invalidPrice
      else if order.qty ≤ 0 then .error .invalidQuantity
      else .ok (side, tif)

/-- A key is freed when any order under it leaves, not only the one it names. -/
def freed (before after : List LiveOrder) (indexed : Int × Int → Option Int) :
    Int × Int → Option Int := fun name =>
  if ∃ order ∈ before, key order = name ∧ ∀ kept ∈ after, kept.id ≠ order.id then none
  else indexed name

def takerOf (market : Market) (order : SubmitOrder) (side : Side) : LiveOrder :=
  ⟨market.tape.nextOrderId, side, order.priceTicks, order.qty,
    ⟨order.clientOrderId, order.userId, order.symbolId, order.timestampNs⟩⟩

def acceptance (order : SubmitOrder) (orderId : Int) : OrderAccepted where
  timestampNs := order.timestampNs
  orderId := orderId
  clientOrderId := order.clientOrderId
  userId := order.userId
  priceTicks := order.priceTicks
  qty := order.qty
  symbolId := order.symbolId
  side := order.side
  tif := order.tif

def fillOf (taker : LiveOrder) (trade : Trade Int Int Ticket) : Fill where
  timestampNs := taker.ticket.createdAtNs
  makerOrderId := trade.maker.id
  takerOrderId := taker.id
  makerUserId := trade.maker.ticket.userId
  takerUserId := taker.ticket.userId
  priceTicks := trade.maker.price
  qty := trade.qty
  symbolId := trade.maker.ticket.symbolId
  aggressorSide := sideCode taker.side

def cancellation (timestampNs : Int) (reason : CancelReason) (order : LiveOrder) :
    OrderCancelled where
  timestampNs := timestampNs
  orderId := order.id
  clientOrderId := order.ticket.clientOrderId
  userId := order.ticket.userId
  remainingQty := order.remaining
  symbolId := order.ticket.symbolId
  reason := reason

def submit (market : Market) (order : SubmitOrder) : Market × List Outbound :=
  match admission order with
  | .error reason => (market, [.orderRejected
      ⟨order.timestampNs, order.clientOrderId, order.userId, order.symbolId, reason⟩])
  | .ok (side, tif) =>
      let taker := market.takerOf order side
      let run := execute taker (onSymbol order.symbolId market.tape.live)
      let rest := if tif = .gtc then run.taker.standing else []
      let expired := if tif = .ioc then run.taker.standing else []
      let live := settle run.trades market.tape.live ++ rest
      (⟨⟨taker.id + 1, live⟩, freed (market.tape.live ++ [taker]) live
          (Function.update market.indexed (key taker) (some taker.id))⟩,
        .orderAccepted (acceptance order taker.id) ::
          (run.trades.map (fun trade => .fill (fillOf taker trade)) ++
            expired.map fun order =>
              .orderCancelled (cancellation order.ticket.createdAtNs .iocExpired order)))

def named (market : Market) (name : Int × Int) : Option LiveOrder :=
  (market.indexed name).bind fun orderId => market.tape.live.find? (·.id = orderId)

def cancel (market : Market) (cancel : CancelOrder) : Market × List Outbound :=
  match market.named (cancel.userId, cancel.targetClientOrderId) with
  | none => (market, [.orderRejected
      ⟨cancel.timestampNs, cancel.clientOrderId, cancel.userId, 0, .unknownOrder⟩])
  | some order =>
      let live := remove order.id market.tape.live
      (⟨{ market.tape with live := live }, freed market.tape.live live market.indexed⟩,
        [.orderCancelled (cancellation cancel.timestampNs .userRequested order)])

/-- Money records are only given their place in the outbound order. -/
def apply (initialCashTicks : Int) (market : Market) : Inbound → Market × List Outbound
  | .submitOrder order => market.submit order
  | .cancelOrder cancel => market.cancel cancel
  | .createAccount create => (market, [.accountCreated
      ⟨create.timestampNs, create.clientOrderId, create.userId, initialCashTicks⟩])
  | .creditCash credit => (market, [.cashCredited
      ⟨credit.timestampNs, credit.clientOrderId, credit.userId, credit.amountTicks⟩])
  | .configureReplay replay => (market, [.replayConfigured
      ⟨replay.timestampNs, replay.clientOrderId, replay.realSecondsPerSimulatedMinute,
        replay.configHashHi, replay.configHashLo⟩])
  | .other => (market, [])

def run (initialCashTicks : Int) (market : Market) : List Inbound → Market × List Outbound
  | [] => (market, [])
  | record :: rest =>
      let (next, outputs) := market.apply initialCashTicks record
      let (final, later) := run initialCashTicks next rest
      (final, outputs ++ later)

/-- The tape is valid, no symbol is crossed, and the index names live orders only. -/
structure Valid (market : Market) : Prop where
  tape : market.tape.Valid
  numbered : 0 < market.tape.nextOrderId ∧ ∀ order ∈ market.tape.live, 0 < order.id
  uncrossed : ∀ symbolId, Uncrossed (onSymbol symbolId market.tape.live)
  index : ∀ name orderId, market.indexed name = some orderId →
    ∃ order ∈ market.tape.live, order.id = orderId ∧ key order = name

end Market

end QuantArena.Exchange
