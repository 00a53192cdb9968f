import QuantArena.Foundations.Bytes
import QuantArena.Foundations.OrderedMap
import QuantArena.Foundations.PriceTime

/-! The C++ order book: orders by value under their ids, and price levels that
hold ids only. A `long long` is an integer here; the casts to it are written out. -/

set_option autoImplicit false

namespace QuantArena.Engine.Cpp

open Foundations Foundations.PriceTime

/-- `static_cast<long long>` of a `uint64_t`. -/
def toLong (value : Int) : Int := Bytes.signed 8 value

/-- `static_cast<uint64_t>` of a `long long`. -/
def toUnsigned (value : Int) : Int := value % 256 ^ 8

structure Order where
  orderId : Int
  userId : Int
  symbol : String
  side : Side
  price : Int
  quantity : Int
  createdAt : Int
  remainingQuantity : Int
deriving DecidableEq, Repr

namespace Order

def new (orderId userId : Int) (symbol : String) (side : Side) (price quantity createdAt : Int) :
    Except Fault Order :=
  if price ≤ 0 then .error (.raised "price must be positive")
  else if quantity ≤ 0 then .error (.raised "quantity must be positive")
  else .ok ⟨orderId, userId, symbol, side, price, quantity, createdAt, quantity⟩

def reduce (order : Order) (qty : Int) : Except Fault Order :=
  if qty ≤ 0 then .error (.raised "qty must be positive")
  else if qty > order.remainingQuantity then
    .error (.raised "cannot reduce more than the remaining quantity")
  else .ok { order with remainingQuantity := order.remainingQuantity - qty }

end Order

structure Fill where
  buyOrderId : Int
  sellOrderId : Int
  symbol : String
  price : Int
  quantity : Int
deriving DecidableEq, Repr

structure PriceLevel where
  price : Int
  orderIds : List Int
deriving DecidableEq, Repr

namespace PriceLevel

def new (price : Int) : Except Fault PriceLevel :=
  if price ≤ 0 then .error (.raised "price must be positive") else .ok ⟨price, []⟩

def appendOrderId (level : PriceLevel) (orderId : Int) : PriceLevel :=
  { level with orderIds := level.orderIds ++ [orderId] }

/-- The found-or-not answer is left out: every caller ignores it. -/
def removeOrderId (level : PriceLevel) (orderId : Int) : PriceLevel :=
  { level with orderIds := level.orderIds.erase orderId }

def frontOrderId (level : PriceLevel) : Option Int := level.orderIds.head?

def empty (level : PriceLevel) : Bool := level.orderIds.isEmpty

end PriceLevel

/-- `bids` is ordered by `std::greater`, so that both maps begin at the best price. -/
structure OrderBook where
  bids : OrderedMap Intᵒᵈ PriceLevel
  asks : OrderedMap Int PriceLevel
  ordersById : OrderedMap Int Order
  arrivalSequence : OrderedMap Int Int
  nextArrivalSequence : Int

namespace OrderBook

def new : OrderBook := ⟨.empty, .empty, .empty, .empty, 0⟩

def findLevel (book : OrderBook) : Side → Int → Option PriceLevel
  | .buy, price => book.bids.find? (OrderDual.toDual price)
  | .sell, price => book.asks.find? price

def putLevel (book : OrderBook) (side : Side) (price : Int) (level : PriceLevel) : OrderBook :=
  match side with
  | .buy => { book with bids := book.bids.insert (OrderDual.toDual price) level }
  | .sell => { book with asks := book.asks.insert price level }

def eraseLevel (book : OrderBook) (side : Side) (price : Int) : OrderBook :=
  match side with
  | .buy => { book with bids := book.bids.erase (OrderDual.toDual price) }
  | .sell => { book with asks := book.asks.erase price }

def levelFor (book : OrderBook) (side : Side) (price : Int) : Except Fault PriceLevel :=
  match book.findLevel side price with
  | some level => .ok level
  | none => PriceLevel.new price

def addOrder (book : OrderBook) (order : Order) : Except Fault OrderBook :=
  if (book.ordersById.find? order.orderId).isSome then
    .error (.raised "order already exists in the book")
  else do
    let registered : OrderBook := { book with
      ordersById := book.ordersById.emplace order.orderId order
      arrivalSequence := book.arrivalSequence.emplace order.orderId book.nextArrivalSequence
      nextArrivalSequence := (book.nextArrivalSequence + 1) % 256 ^ 8 }
    let level ← book.levelFor order.side order.price
    .ok (registered.putLevel order.side order.price (level.appendOrderId order.orderId))

/-- The level without the order, itself gone when that empties it. -/
def dropFromLevel (book : OrderBook) (order : Order) (orderId : Int) : OrderBook :=
  match book.findLevel order.side order.price with
  | none => book
  | some level =>
      if (level.removeOrderId orderId).empty then book.eraseLevel order.side order.price
      else book.putLevel order.side order.price (level.removeOrderId orderId)

def removeOrder (book : OrderBook) (orderId : Int) : OrderBook × Option Order :=
  match book.ordersById.find? orderId with
  | none => (book, none)
  | some removed =>
      let dropped := book.dropFromLevel removed orderId
      ({ dropped with
        ordersById := dropped.ordersById.erase orderId
        arrivalSequence := dropped.arrivalSequence.erase orderId }, some removed)

def cancelOrder (book : OrderBook) (orderId : Int) : OrderBook := (book.removeOrder orderId).1

def getOrder (book : OrderBook) (orderId : Int) : Option Order := book.ordersById.find? orderId

def bestBid (book : OrderBook) : Option Int :=
  book.bids.first?.map fun entry => OrderDual.ofDual entry.1

def bestAsk (book : OrderBook) : Option Int := book.asks.first?.map (·.1)

/-- `order.reduce(qty)` through a reference into `orders_by_id_`. -/
def reduceOrder (book : OrderBook) (order : Order) (qty : Int) : Except Fault OrderBook := do
  let reduced ← order.reduce qty
  .ok { book with ordersById := book.ordersById.insert order.orderId reduced }

def removeIfExhausted (book : OrderBook) (orderId : Int) : OrderBook :=
  match book.ordersById.find? orderId with
  | some order => if order.remainingQuantity = 0 then (book.removeOrder orderId).1 else book
  | none => book

def tradeTop (book : OrderBook) (bidOrder askOrder : Order) : Except Fault (OrderBook × Fill) := do
  let tradeQty := min bidOrder.remainingQuantity askOrder.remainingQuantity
  let bidArrival ← orMissing (book.arrivalSequence.find? bidOrder.orderId)
  let askArrival ← orMissing (book.arrivalSequence.find? askOrder.orderId)
  let makerPrice := if bidArrival < askArrival then bidOrder.price else askOrder.price
  let fill : Fill :=
    ⟨bidOrder.orderId, askOrder.orderId, askOrder.symbol, makerPrice, tradeQty⟩
  let book ← book.reduceOrder bidOrder tradeQty
  let book ← book.reduceOrder askOrder tradeQty
  let book := book.removeIfExhausted bidOrder.orderId
  let book := book.removeIfExhausted askOrder.orderId
  .ok (book, fill)

/-- The front order of the level at a price, as `match` looks it up. -/
def frontOrder (book : OrderBook) (side : Side) (price : Int) : Option Order :=
  (book.findLevel side price).bind fun level =>
    level.frontOrderId.bind fun orderId => book.ordersById.find? orderId

/-- `while (true)` of `match`, cut off after `rounds` rounds. -/
def matchLoop : Nat → OrderBook → List Fill → Except Fault (OrderBook × List Fill)
  | 0, _, _ => .error .diverged
  | rounds + 1, book, fills =>
      match book.bestBid, book.bestAsk with
      | some bidPrice, some askPrice =>
          if bidPrice < askPrice then .ok (book, fills)
          else
            match book.frontOrder .buy bidPrice, book.frontOrder .sell askPrice with
            | some bidOrder, some askOrder => do
                let (book, fill) ← book.tradeTop bidOrder askOrder
                matchLoop rounds book (fills ++ [fill])
            | _, _ => .ok (book, fills)
      | _, _ => .ok (book, fills)

/-- `match`. Each round removes an order, so the book's size bounds the rounds. -/
def matchBook (book : OrderBook) : Except Fault (OrderBook × List Fill) :=
  matchLoop (book.ordersById.size + 1) book []

end OrderBook

end QuantArena.Engine.Cpp
