import Mathlib.Data.List.Sort
import Mathlib.Data.Prod.Lex
import QuantArena.Contracts.Records
import QuantArena.Engine.NaiveModel
import QuantArena.Matcher.Snapshot

/-! The naive matcher behind the wire contract: one inbound record in, the
outbound records it produced out. -/

set_option autoImplicit false

namespace QuantArena.Matcher

open Foundations Foundations.PriceTime Contracts Engine.NaiveModel

/-- `_Live`. Each is created with an order id of its own, so that comparing two
of them compares which object they are. -/
structure Live where
  orderId : Int
  clientOrderId : Int
  userId : Int
  symbolId : Int
  side : Int
  priceTicks : Int
  qty : Int
  modelOrder : Order
deriving DecidableEq, Repr

structure NaiveMatcher where
  initialCashTicks : Int
  books : Dict Int OrderBook
  nextOrderId : Int
  live : Dict (Int × Int) Live
  byOrderId : Dict Int Live
deriving DecidableEq, Repr

namespace NaiveMatcher

def new (firstOrderId initialCashTicks : Int) : NaiveMatcher :=
  ⟨initialCashTicks, .empty, firstOrderId, .empty, .empty⟩

/-- `book(symbol_id)`: the symbol's book, which starts out empty. -/
def book (matcher : NaiveMatcher) (symbolId : Int) : OrderBook :=
  matcher.books.getD symbolId .new

def setBook (matcher : NaiveMatcher) (symbolId : Int) (book : OrderBook) : NaiveMatcher :=
  { matcher with books := matcher.books.set symbolId book }

/-- `live.remaining_qty`, read off the model order its book holds. -/
def remainingQty (matcher : NaiveMatcher) (live : Live) : Int :=
  (matcher.book live.symbolId).remainingQuantity live.modelOrder

/-- `resting()`: `(order_id, symbol_id, side, price_ticks, remaining_qty)`, sorted as tuples. -/
def resting (matcher : NaiveMatcher) : List (Int ×ₗ Int ×ₗ Int ×ₗ Int ×ₗ Int) :=
  (matcher.byOrderId.values.map fun live =>
    toLex (live.orderId, toLex (live.symbolId, toLex (live.side, toLex (live.priceTicks,
      matcher.remainingQty live))))).mergeSort (· ≤ ·)

def forget (matcher : NaiveMatcher) (live : Live) : NaiveMatcher :=
  { matcher with
    live := matcher.live.erase (live.userId, live.clientOrderId)
    byOrderId := matcher.byOrderId.erase live.orderId }

/-- `is` compares the indexed record with this very one. -/
def snapshotOrder (matcher : NaiveMatcher) (live : Live) : SnapshotOrder where
  orderId := live.orderId
  clientOrderId := live.clientOrderId
  userId := live.userId
  symbolId := live.symbolId
  side := live.side
  indexed := matcher.live.get? (live.userId, live.clientOrderId) = some live
  priceTicks := live.priceTicks
  remainingQty := matcher.remainingQty live
  createdAtNs := live.modelOrder.createdAt

def snapshot (matcher : NaiveMatcher) : Except Fault (List UInt8) :=
  EngineSnapshot.pack
    ⟨matcher.nextOrderId, matcher.byOrderId.values.map matcher.snapshotOrder⟩

/-- The body of `restore`'s loop. -/
def restoreOrder (matcher : NaiveMatcher) (order : SnapshotOrder) :
    Except Fault NaiveMatcher := do
  let side ← orMissing (sideOf? order.side)
  let modelOrder ← Order.new order.orderId order.userId (toString order.symbolId) side
    order.priceTicks order.remainingQty order.createdAtNs
  let live : Live := ⟨order.orderId, order.clientOrderId, order.userId, order.symbolId, order.side,
    order.priceTicks, order.remainingQty, modelOrder⟩
  let (book, _) ← (matcher.book order.symbolId).addOrder modelOrder false
  let matcher := matcher.setBook order.symbolId book
  let matcher := { matcher with byOrderId := matcher.byOrderId.set order.orderId live }
  .ok (if order.indexed then
      { matcher with live := matcher.live.set (order.userId, order.clientOrderId) live }
    else matcher)

def restoreOrders (matcher : NaiveMatcher) : List SnapshotOrder → Except Fault NaiveMatcher
  | [] => .ok matcher
  | order :: rest => do
      let matcher ← matcher.restoreOrder order
      matcher.restoreOrders rest

def restore (data : List UInt8) (initialCashTicks : Int) : Except Fault NaiveMatcher := do
  let snapshot ← EngineSnapshot.unpack data
  (new snapshot.nextOrderId initialCashTicks).restoreOrders snapshot.orders

def forwardCreate (matcher : NaiveMatcher) (create : CreateAccount) : List Outbound :=
  [.accountCreated
    ⟨create.timestampNs, create.clientOrderId, create.userId, matcher.initialCashTicks⟩]

def forwardCredit (credit : CreditCash) : List Outbound :=
  [.cashCredited ⟨credit.timestampNs, credit.clientOrderId, credit.userId, credit.amountTicks⟩]

def forwardReplay (replay : ConfigureReplay) : List Outbound :=
  [.replayConfigured ⟨replay.timestampNs, replay.clientOrderId,
    replay.realSecondsPerSimulatedMinute, replay.configHashHi, replay.configHashLo⟩]

/-- `_reject_reason`: bounds only. -/
def rejectReason (order : SubmitOrder) : Option RejectReason :=
  if (sideOf? order.side).isNone then some .invalidSide
  else if order.tif ≠ tifCode .gtc ∧ order.tif ≠ tifCode .ioc then some .invalidTif
  else if order.priceTicks ≤ 0 then some .invalidPrice
  else if order.qty ≤ 0 then some .invalidQuantity
  else none

/-- `_to_contract_fill`, which also drops a maker that the run has exhausted. -/
def toContractFill (matcher : NaiveMatcher) (taker : SubmitOrder) (takerOrderId : Int)
    (modelFill : Engine.NaiveModel.Fill) : Except Fault (NaiveMatcher × Contracts.Fill) := do
  let makerOrderId :=
    if modelFill.buyOrderId = takerOrderId then modelFill.sellOrderId else modelFill.buyOrderId
  let maker ← orMissing (matcher.byOrderId.get? makerOrderId)
  let filled ← orMissing (matcher.byOrderId.get? takerOrderId)
  let after := if matcher.remainingQty maker = 0 then matcher.forget maker else matcher
  .ok (after, ⟨taker.timestampNs, makerOrderId, takerOrderId, maker.userId, filled.userId,
    modelFill.price, modelFill.quantity, maker.symbolId, taker.side⟩)

def toContractFills (matcher : NaiveMatcher) (taker : SubmitOrder) (takerOrderId : Int) :
    List Engine.NaiveModel.Fill → Except Fault (NaiveMatcher × List Outbound)
  | [] => .ok (matcher, [])
  | modelFill :: rest => do
      let (matcher, fill) ← matcher.toContractFill taker takerOrderId modelFill
      let (matcher, fills) ← matcher.toContractFills taker takerOrderId rest
      .ok (matcher, .fill fill :: fills)

/-- The end of `_submit`: what did not trade rests, expires or was never there. -/
def settleTaker (matcher : NaiveMatcher) (order : SubmitOrder) (live : Live) :
    Except Fault (NaiveMatcher × List Outbound) :=
  let remaining := matcher.remainingQty live
  if order.tif = tifCode .ioc ∧ 0 < remaining then do
    let (book, _) ← (matcher.book order.symbolId).removeOrder live.orderId
    .ok ((matcher.setBook order.symbolId book).forget live,
      [.orderCancelled ⟨order.timestampNs, live.orderId, order.clientOrderId, order.userId,
        remaining, order.symbolId, .iocExpired⟩])
  else if remaining = 0 then .ok (matcher.forget live, [])
  else .ok (matcher, [])

def submit (matcher : NaiveMatcher) (order : SubmitOrder) :
    Except Fault (NaiveMatcher × List Outbound) :=
  match rejectReason order with
  | some reason => .ok (matcher, [.orderRejected
      ⟨order.timestampNs, order.clientOrderId, order.userId, order.symbolId, reason⟩])
  | none => do
      let orderId := matcher.nextOrderId
      let side ← orMissing (sideOf? order.side)
      let modelOrder ← Order.new orderId order.userId (toString order.symbolId) side
        order.priceTicks order.qty order.timestampNs
      let live : Live := ⟨orderId, order.clientOrderId, order.userId, order.symbolId, order.side,
        order.priceTicks, order.qty, modelOrder⟩
      let registered := { matcher with
        nextOrderId := orderId + 1
        live := matcher.live.set (order.userId, order.clientOrderId) live
        byOrderId := matcher.byOrderId.set orderId live }
      let accepted : OrderAccepted := ⟨order.timestampNs, orderId, order.clientOrderId,
        order.userId, order.priceTicks, order.qty, order.symbolId, order.side, order.tif⟩
      let (book, modelFills) ← (registered.book order.symbolId).matchOrder modelOrder
      let (matched, fills) ←
        (registered.setBook order.symbolId book).toContractFills order orderId modelFills
      let (settled, expiry) ← matched.settleTaker order live
      .ok (settled, .orderAccepted accepted :: (fills ++ expiry))

def cancel (matcher : NaiveMatcher) (cancel : CancelOrder) :
    Except Fault (NaiveMatcher × List Outbound) :=
  match matcher.live.get? (cancel.userId, cancel.targetClientOrderId) with
  | none => .ok (matcher, [.orderRejected
      ⟨cancel.timestampNs, cancel.clientOrderId, cancel.userId, 0, .unknownOrder⟩])
  | some live => do
      let remaining := matcher.remainingQty live
      let (book, _) ← (matcher.book live.symbolId).removeOrder live.orderId
      .ok ((matcher.setBook live.symbolId book).forget live, [.orderCancelled
        ⟨cancel.timestampNs, live.orderId, live.clientOrderId, cancel.userId, remaining,
          live.symbolId, .userRequested⟩])

def apply (matcher : NaiveMatcher) : Inbound → Except Fault (NaiveMatcher × List Outbound)
  | .submitOrder order => matcher.submit order
  | .cancelOrder request => matcher.cancel request
  | .createAccount create => .ok (matcher, matcher.forwardCreate create)
  | .creditCash credit => .ok (matcher, forwardCredit credit)
  | .configureReplay replay => .ok (matcher, forwardReplay replay)
  | .other => .ok (matcher, [])

/-- The records of a stream applied one after another. -/
def applyAll (matcher : NaiveMatcher) : List Inbound → Except Fault (NaiveMatcher × List Outbound)
  | [] => .ok (matcher, [])
  | record :: rest => do
      let (matcher, outputs) ← matcher.apply record
      let (matcher, later) ← matcher.applyAll rest
      .ok (matcher, outputs ++ later)

end NaiveMatcher

end QuantArena.Matcher
