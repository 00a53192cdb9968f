import Mathlib.Data.Prod.Lex
import QuantArena.Contracts.Records
import QuantArena.Engine.Cpp.OrderBook

/-! The C++ stream engine, from one unpacked inbound record to the outbound
records it writes. The ids and keys are `uint64_t`, the prices and quantities
`int64_t`; every place where a value is cut to its width is written out. -/

set_option autoImplicit false

namespace QuantArena.Engine.Cpp

open Foundations Foundations.PriceTime Contracts

structure LiveOrder where
  orderId : Int
  clientOrderId : Int
  userId : Int
  symbolId : Int
  side : Int
  priceTicks : Int
deriving DecidableEq, Repr

structure StreamEngine where
  initialCashTicks : Int
  nextOrderId : Int
  books : OrderedMap Int OrderBook
  live : OrderedMap Int LiveOrder
  clientToOrder : OrderedMap (Int ×ₗ Int) Int

namespace StreamEngine

def new (initialCashTicks : Int) : StreamEngine := ⟨initialCashTicks, 1, .empty, .empty, .empty⟩

/-- `books_[symbol_id]`, which starts out empty. -/
def book (engine : StreamEngine) (symbolId : Int) : OrderBook :=
  (engine.books.find? symbolId).getD .new

def setBook (engine : StreamEngine) (symbolId : Int) (book : OrderBook) : StreamEngine :=
  { engine with books := engine.books.insert symbolId book }

def clientKey (userId clientOrderId : Int) : Int ×ₗ Int := toLex (userId, clientOrderId)

/-! ## Snapshot -/

/-- `put_le` of a value cast to `uint64_t`. -/
def putLe (value : Int) (width : Nat) : List UInt8 := Bytes.truncated width value

def getLe (data : List UInt8) (width : Nat) : Except Fault (Int × List UInt8) :=
  if data.length < width then .error (.raised "engine snapshot is truncated")
  else .ok (Bytes.takeUnsigned width data)

def indexedFlag (engine : StreamEngine) (live : LiveOrder) (orderId : Int) : Int :=
  if engine.clientToOrder.find? (clientKey live.userId live.clientOrderId) = some orderId then 1
  else 0

def snapshotOrders (engine : StreamEngine) :
    List (Int × LiveOrder) → Except Fault (List UInt8)
  | [] => .ok []
  | (orderId, live) :: rest =>
      match (engine.book live.symbolId).getOrder (toLong orderId) with
      | none => .error (.raised "live order is missing from its book")
      | some order => do
          let parts ← engine.snapshotOrders rest
          .ok (putLe orderId 8 ++ (putLe live.clientOrderId 8 ++ (putLe live.userId 8 ++
            (putLe live.symbolId 2 ++ (putLe live.side 1 ++
              (putLe (engine.indexedFlag live orderId) 1 ++ (putLe live.priceTicks 8 ++
                (putLe order.remainingQuantity 8 ++ putLe order.createdAt 8))))))) ++ parts)

def snapshot (engine : StreamEngine) : Except Fault (List UInt8) := do
  let parts ← engine.snapshotOrders engine.live.entries
  .ok ([81, 65, 83, 49] ++ (putLe engine.nextOrderId 8 ++ putLe engine.live.size 4) ++ parts)

/-- What `restore`'s loop adds for one order of the snapshot. -/
def restoreOrder (engine : StreamEngine) (orderId clientOrderId userId symbolId side : Int)
    (indexed : Bool) (priceTicks remaining createdAt : Int) : Except Fault StreamEngine := do
  let engine := { engine with
    live := engine.live.insert orderId ⟨orderId, clientOrderId, userId, symbolId, side, priceTicks⟩
    clientToOrder := if indexed then
        engine.clientToOrder.insert (clientKey userId clientOrderId) orderId
      else engine.clientToOrder }
  let order ← Order.new (toLong orderId) (toLong userId) (toString symbolId)
    (if side = sideCode .buy then .buy else .sell) priceTicks remaining createdAt
  let book ← (engine.book symbolId).addOrder order
  .ok (engine.setBook symbolId book)

def restoreOrders : Nat → List UInt8 → Int → Int → StreamEngine → Except Fault StreamEngine
  | 0, _, _, _, engine => .ok engine
  | count + 1, data, previous, nextOrderId, engine => do
      let (orderId, data) ← getLe data 8
      let (clientOrderId, data) ← getLe data 8
      let (userId, data) ← getLe data 8
      let (symbolId, data) ← getLe data 2
      let (side, data) ← getLe data 1
      let (indexed, data) ← getLe data 1
      let (priceTicks, data) ← getLe data 8
      let (remaining, data) ← getLe data 8
      let (createdAt, data) ← getLe data 8
      if orderId ≤ previous ∨ orderId ≥ nextOrderId then
        .error (.raised "engine snapshot orders are not ascending below next_order_id")
      else if side ≠ sideCode .buy ∧ side ≠ sideCode .sell then
        .error (.raised "engine snapshot order has an invalid side")
      else do
        let engine ← engine.restoreOrder orderId clientOrderId userId (Bytes.signed 2 symbolId) side
          (indexed != 0) (Bytes.signed 8 priceTicks) (Bytes.signed 8 remaining)
          (Bytes.signed 8 createdAt)
        restoreOrders count data orderId nextOrderId engine

/-- `restore`, reached only with a frame that opens with the magic. -/
def restore (engine : StreamEngine) (data : List UInt8) : Except Fault StreamEngine :=
  if engine.nextOrderId ≠ 1 ∨ engine.live.entries ≠ [] ∨ engine.books.size ≠ 0 then
    .error (.raised "a snapshot can only be restored into a fresh engine")
  else do
    let (nextOrderId, rest) ← getLe (data.drop 4) 8
    let (count, rest) ← getLe rest 4
    if data.length ≠ 16 + count.toNat * 52 then
      .error (.raised "engine snapshot length does not match its order count")
    else do
      let engine ← restoreOrders count.toNat rest 0 nextOrderId engine
      .ok { engine with nextOrderId := nextOrderId }

/-! ## Records -/

def rejected (input : SubmitOrder) (reason : RejectReason) : Outbound :=
  .orderRejected ⟨input.timestampNs, input.clientOrderId, input.userId, input.symbolId, reason⟩

def rejectedCancel (input : CancelOrder) (reason : RejectReason) : Outbound :=
  .orderRejected ⟨input.timestampNs, input.clientOrderId, input.userId, 0, reason⟩

def accepted (input : SubmitOrder) (orderId : Int) : Outbound :=
  .orderAccepted ⟨input.timestampNs, orderId, input.clientOrderId, input.userId, input.priceTicks,
    input.qty, input.symbolId, input.side, input.tif⟩

def fillRecord (input : SubmitOrder) (fill : Fill) (maker taker : LiveOrder) : Outbound :=
  .fill ⟨input.timestampNs, maker.orderId, taker.orderId, maker.userId, taker.userId, fill.price,
    fill.quantity, maker.symbolId, taker.side⟩

def cancelled (timestampNs : Int) (order : LiveOrder) (remaining : Int) (reason : CancelReason) :
    Outbound :=
  .orderCancelled ⟨timestampNs, order.orderId, order.clientOrderId, order.userId, remaining,
    order.symbolId, reason⟩

/-! ## Submit -/

def forgetIfFilled (engine : StreamEngine) (symbolId orderId : Int) : StreamEngine :=
  if ((engine.book symbolId).getOrder (toLong orderId)).isSome then engine
  else
    match engine.live.find? orderId with
    | none => engine
    | some live => { engine with
        clientToOrder := engine.clientToOrder.erase (clientKey live.userId live.clientOrderId)
        live := engine.live.erase orderId }

/-- The second loop over the fills. -/
def forgetFilled (engine : StreamEngine) (symbolId : Int) : List Fill → StreamEngine
  | [] => engine
  | fill :: rest =>
      ((engine.forgetIfFilled symbolId (toUnsigned fill.buyOrderId)).forgetIfFilled symbolId
        (toUnsigned fill.sellOrderId)).forgetFilled symbolId rest

/-- The first loop over the fills. -/
def fillRecords (engine : StreamEngine) (input : SubmitOrder) (orderId : Int) :
    List Fill → Except Fault (List Outbound)
  | [] => .ok []
  | fill :: rest => do
      let buy ← orMissing (engine.live.find? (toUnsigned fill.buyOrderId))
      let sell ← orMissing (engine.live.find? (toUnsigned fill.sellOrderId))
      let maker := if buy.orderId = orderId then sell else buy
      let taker := if buy.orderId = orderId then buy else sell
      let records ← engine.fillRecords input orderId rest
      .ok (fillRecord input fill maker taker :: records)

def rejectReason (input : SubmitOrder) : Option RejectReason :=
  if input.priceTicks ≤ 0 then some .invalidPrice
  else if input.qty ≤ 0 then some .invalidQuantity
  else if input.side ≠ sideCode .buy ∧ input.side ≠ sideCode .sell then some .invalidSide
  else if input.tif ≠ tifCode .gtc ∧ input.tif ≠ tifCode .ioc then some .invalidTif
  else none

/-- The end of `submit`: an order that does not rest takes its remainder off the book. -/
def expire (engine : StreamEngine) (input : SubmitOrder) (orderId : Int) :
    StreamEngine × List Outbound :=
  match engine.live.find? orderId with
  | none => (engine, [])
  | some current =>
      if input.tif = tifCode .ioc then
        match (engine.book input.symbolId).getOrder (toLong orderId) with
        | none => (engine, [])
        | some order =>
            if 0 < order.remainingQuantity then
              let book := (engine.book input.symbolId).cancelOrder (toLong orderId)
              ({ engine.setBook input.symbolId book with
                  clientToOrder :=
                    engine.clientToOrder.erase (clientKey input.userId input.clientOrderId)
                  live := engine.live.erase orderId },
                [cancelled input.timestampNs current order.remainingQuantity .iocExpired])
            else (engine, [])
      else (engine, [])

def submit (engine : StreamEngine) (input : SubmitOrder) :
    Except Fault (StreamEngine × List Outbound) :=
  match rejectReason input with
  | some reason => .ok (engine, [rejected input reason])
  | none => do
      let orderId := engine.nextOrderId
      let live : LiveOrder := ⟨orderId, input.clientOrderId, input.userId, input.symbolId,
        input.side, input.priceTicks⟩
      let registered := { engine with
        nextOrderId := (engine.nextOrderId + 1) % 256 ^ 8
        clientToOrder :=
          engine.clientToOrder.insert (clientKey input.userId input.clientOrderId) orderId
        live := engine.live.insert orderId live }
      let order ← Order.new (toLong orderId) (toLong input.userId) (toString input.symbolId)
        (if input.side = sideCode .buy then .buy else .sell) input.priceTicks input.qty
        input.timestampNs
      let entered ← (registered.book input.symbolId).addOrder order
      let (book, fills) ← entered.matchBook
      let matched := registered.setBook input.symbolId book
      let records ← matched.fillRecords input orderId fills
      let (settled, expiry) := (matched.forgetFilled input.symbolId fills).expire input orderId
      .ok (settled, accepted input orderId :: (records ++ expiry))

/-! ## Cancel and the rest -/

def cancel (engine : StreamEngine) (input : CancelOrder) :
    Except Fault (StreamEngine × List Outbound) :=
  match engine.clientToOrder.find? (clientKey input.userId input.targetClientOrderId) with
  | none => .ok (engine, [rejectedCancel input .unknownOrder])
  | some orderId =>
      match engine.live.find? orderId with
      | none => .error (.raised "client order index points to a missing live order")
      | some order =>
          let erased := { engine with
            clientToOrder :=
              engine.clientToOrder.erase (clientKey input.userId input.targetClientOrderId)
            live := engine.live.erase orderId }
          match (engine.book order.symbolId).getOrder (toLong order.orderId) with
          | none => .ok (erased, [rejectedCancel input .unknownOrder])
          | some current =>
              let book := (engine.book order.symbolId).cancelOrder (toLong order.orderId)
              .ok (erased.setBook order.symbolId book,
                [cancelled input.timestampNs order current.remainingQuantity .userRequested])

def apply (engine : StreamEngine) : Inbound → Except Fault (StreamEngine × List Outbound)
  | .submitOrder input => engine.submit input
  | .cancelOrder input => engine.cancel input
  | .createAccount input => .ok (engine, [.accountCreated
      ⟨input.timestampNs, input.clientOrderId, input.userId, engine.initialCashTicks⟩])
  | .creditCash input => .ok (engine, [.cashCredited
      ⟨input.timestampNs, input.clientOrderId, input.userId, input.amountTicks⟩])
  | .configureReplay input => .ok (engine, [.replayConfigured
      ⟨input.timestampNs, input.clientOrderId, input.realSecondsPerSimulatedMinute,
        input.configHashHi, input.configHashLo⟩])
  | .other => .ok (engine, [])

/-- The records of a stream applied one after another. -/
def applyAll (engine : StreamEngine) : List Inbound → Except Fault (StreamEngine × List Outbound)
  | [] => .ok (engine, [])
  | record :: rest => do
      let (engine, outputs) ← engine.apply record
      let (engine, later) ← engine.applyAll rest
      .ok (engine, outputs ++ later)

end StreamEngine

end QuantArena.Engine.Cpp
