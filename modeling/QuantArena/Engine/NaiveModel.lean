import QuantArena.Foundations.Dict
import QuantArena.Foundations.Fault
import QuantArena.Foundations.PriceTime

/-! The naive reference model of one order book. An `Order` is immutable here
except for `remaining_quantity`, which every holder of the object shares; that
one attribute lives in the book's `remaining` cells, keyed by order id. -/

set_option autoImplicit false

namespace QuantArena.Engine.NaiveModel

open Foundations Foundations.PriceTime

structure Order where
  orderId : Int
  userId : Int
  symbol : String
  side : Side
  price : Int
  quantity : Int
  createdAt : Int
deriving DecidableEq, Repr

def Order.new (orderId userId : Int) (symbol : String) (side : Side) (price quantity createdAt : Int) :
    Except Fault Order :=
  if price ≤ 0 then .error (.raised "price must be positive")
  else if quantity ≤ 0 then .error (.raised "quantity must be positive")
  else .ok { orderId, userId, symbol, side, price, quantity, createdAt }

structure Fill where
  buyOrderId : Int
  sellOrderId : Int
  symbol : String
  price : Int
  quantity : Int
deriving DecidableEq, Repr

def Fill.new (buyOrderId sellOrderId : Int) (symbol : String) (price quantity : Int) :
    Except Fault Fill :=
  if quantity ≤ 0 then .error (.raised "quantity must be positive")
  else .ok { buyOrderId, sellOrderId, symbol, price, quantity }

structure PriceLevel where
  price : Int
  orders : List Order
deriving DecidableEq, Repr

namespace PriceLevel

def new (price : Int) : Except Fault PriceLevel :=
  if price ≤ 0 then .error (.raised "price must be positive") else .ok { price, orders := [] }

def append (level : PriceLevel) (order : Order) : PriceLevel :=
  { level with orders := level.orders ++ [order] }

def remove (level : PriceLevel) (order : Order) : Except Fault PriceLevel :=
  if order ∈ level.orders then .ok { level with orders := level.orders.erase order }
  else .error (.raised s!"order {order.orderId} is not in price level {level.price}")

def first (level : PriceLevel) : Option Order := level.orders.head?

def empty (level : PriceLevel) : Bool := level.orders.isEmpty

end PriceLevel

structure OrderBook where
  bids : Dict Int PriceLevel
  asks : Dict Int PriceLevel
  ordersById : Dict Int Order
  arrivalSequence : Dict Int Nat
  nextArrivalSequence : Nat
  /-- `remaining_quantity` of every order object this book was ever handed. -/
  remaining : Dict Int Int
deriving DecidableEq, Repr

namespace OrderBook

def new : OrderBook := ⟨.empty, .empty, .empty, .empty, 0, .empty⟩

def sideMap (book : OrderBook) : Side → Dict Int PriceLevel
  | .buy => book.bids
  | .sell => book.asks

def setSideMap (book : OrderBook) (side : Side) (levels : Dict Int PriceLevel) : OrderBook :=
  match side with
  | .buy => { book with bids := levels }
  | .sell => { book with asks := levels }

/-- `order.remaining_quantity`, which starts at the order's quantity. -/
def remainingQuantity (book : OrderBook) (order : Order) : Int :=
  book.remaining.getD order.orderId order.quantity

/-- `Order.reduce`. -/
def reduceOrder (book : OrderBook) (order : Order) (qty : Int) : Except Fault OrderBook :=
  if qty ≤ 0 then .error (.raised "qty must be positive")
  else if qty > book.remainingQuantity order then
    .error (.raised "cannot reduce more than the remaining quantity")
  else
    .ok { book with
      remaining := book.remaining.set order.orderId (book.remainingQuantity order - qty) }

/-- `target[order.price]`, created first when the price has no level. -/
def levelFor (target : Dict Int PriceLevel) (price : Int) : Except Fault PriceLevel :=
  match target.get? price with
  | some level => .ok level
  | none => PriceLevel.new price

/-- The insertion half of `add_order`. -/
def insertOrder (book : OrderBook) (order : Order) : Except Fault OrderBook :=
  if book.ordersById.contains order.orderId then
    .error (.raised s!"order {order.orderId} already exists in the book")
  else do
    let target := book.sideMap order.side
    let level ← levelFor target order.price
    let registered : OrderBook := { book with
      ordersById := book.ordersById.set order.orderId order
      arrivalSequence := book.arrivalSequence.set order.orderId book.nextArrivalSequence
      nextArrivalSequence := book.nextArrivalSequence + 1
      remaining := book.remaining.set order.orderId order.quantity }
    .ok (registered.setSideMap order.side (target.set order.price (level.append order)))

def removeOrder (book : OrderBook) (orderId : Int) : Except Fault (OrderBook × Option Order) :=
  match book.ordersById.get? orderId with
  | none => .ok (book, none)
  | some order =>
      let unregistered : OrderBook := { book with
        ordersById := book.ordersById.erase orderId
        arrivalSequence := book.arrivalSequence.erase orderId }
      let target := book.sideMap order.side
      match target.get? order.price with
      | none => .ok (unregistered, some order)
      | some level => do
          let level ← level.remove order
          if level.empty then
            .ok (unregistered.setSideMap order.side (target.erase order.price), some order)
          else .ok (unregistered.setSideMap order.side (target.set order.price level), some order)

def bestBid (book : OrderBook) : Option Int := book.bids.keys.max?

def bestAsk (book : OrderBook) : Option Int := book.asks.keys.min?

def bestBidOrder (book : OrderBook) : Option Order :=
  book.bestBid.bind fun price => (book.bids.get? price).bind (·.first)

def bestAskOrder (book : OrderBook) : Option Order :=
  book.bestAsk.bind fun price => (book.asks.get? price).bind (·.first)

/-- `if order.remaining_quantity == 0: self.remove_order(order.order_id)`. -/
def removeIfExhausted (book : OrderBook) (order : Order) : Except Fault OrderBook :=
  if book.remainingQuantity order = 0 then (·.1) <$> book.removeOrder order.orderId else .ok book

/-- One round of the matching loop, on the two orders it has picked. -/
def tradeTop (book : OrderBook) (bidOrder askOrder : Order) : Except Fault (OrderBook × Fill) := do
  let tradeQty := min (book.remainingQuantity bidOrder) (book.remainingQuantity askOrder)
  let bidArrival ← orMissing (book.arrivalSequence.get? bidOrder.orderId)
  let askArrival ← orMissing (book.arrivalSequence.get? askOrder.orderId)
  let makerOrder := if bidArrival < askArrival then bidOrder else askOrder
  let fill ← Fill.new bidOrder.orderId askOrder.orderId askOrder.symbol makerOrder.price tradeQty
  let book ← book.reduceOrder bidOrder tradeQty
  let book ← book.reduceOrder askOrder tradeQty
  let book ← book.removeIfExhausted bidOrder
  let book ← book.removeIfExhausted askOrder
  .ok (book, fill)

/-- `while True` of `match`, cut off after `rounds` rounds. -/
def matchLoop : Nat → OrderBook → List Fill → Except Fault (OrderBook × List Fill)
  | 0, _, _ => .error .diverged
  | rounds + 1, book, fills =>
      match book.bestBid, book.bestAsk with
      | some bidPrice, some askPrice =>
          if bidPrice < askPrice then .ok (book, fills)
          else
            match book.bestBidOrder, book.bestAskOrder with
            | some bidOrder, some askOrder => do
                let (book, fill) ← book.tradeTop bidOrder askOrder
                matchLoop rounds book (fills ++ [fill])
            | _, _ => .ok (book, fills)
      | _, _ => .ok (book, fills)

/-- `match`. Each round removes an order, so the book's size bounds the rounds. -/
def matchBook (book : OrderBook) : Except Fault (OrderBook × List Fill) :=
  matchLoop (book.ordersById.size + 1) book []

def addOrder (book : OrderBook) (order : Order) (matchImmediately : Bool) :
    Except Fault (OrderBook × List Fill) := do
  let book ← book.insertOrder order
  if matchImmediately then book.matchBook else .ok (book, [])

def matchOrder (book : OrderBook) (order : Order) : Except Fault (OrderBook × List Fill) :=
  book.addOrder order true

def level (book : OrderBook) (side : Side) (price : Int) : Option PriceLevel :=
  (book.sideMap side).get? price

end OrderBook

end QuantArena.Engine.NaiveModel
