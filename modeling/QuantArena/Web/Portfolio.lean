import QuantArena.Fanout.Private
import QuantArena.Foundations.Double

/-! The browser's private state: cash, positions and open orders, folded from the private
stream and replaced by a resync. Its numbers are doubles. -/

set_option autoImplicit false

namespace QuantArena.Web

open Foundations Contracts Fanout

/-- The browser's own copy of the ledger's fees. -/
def makerFeeBps : Int := 2
def takerFeeBps : Int := 10
def bpsDenominator : Int := 10000

def feeTicks (notionalTicks bps : Int) : Int :=
  Double.floorDiv (Double.ofInt (notionalTicks * bps)) bpsDenominator

structure OpenOrderView where
  orderId : Int
  clientOrderId : Int
  symbol : Name
  side : Int
  priceTicks : Int
  qty : Int
  remainingQty : Int
  tif : Int
deriving DecidableEq, Repr

inductive NoticeKind where
  | accepted
  | rejected
  | filled
  | cancelled
  | resynced
deriving DecidableEq, Repr

structure Notice where
  kind : NoticeKind
  clientOrderId : Option Int
  symbol : Option Name
  detail : String
  priceTicks : Option Int
  qty : Option Int
  atMs : Int
deriving DecidableEq, Repr

/-- The member that is not set by assigning a number or a text to it. -/
def protoMember : Name := "__proto__".toList

/-- What a plain object has without being given it: the members of `Object.prototype`. -/
def inheritedMembers : List Name :=
  ["constructor", "hasOwnProperty", "isPrototypeOf", "propertyIsEnumerable", "toLocaleString",
    "toString", "valueOf", "__defineGetter__", "__defineSetter__", "__lookupGetter__",
    "__lookupSetter__"].map String.toList ++ [protoMember]

/-- A plain object by symbol name. A value that is no number is `none`: what is added to an
inherited member is a text. -/
abbrev Positions := Dict Name (Option Int)

structure PortfolioState where
  /-- `null` until something says otherwise. -/
  cashTicks : Option Int
  positions : Positions
  /-- By order id. -/
  openOrders : Dict Int OpenOrderView
  notices : List Notice
  applied : Nat
  resyncs : Nat

/-- The value that `EMPTY` names. -/
def emptyPortfolio : PortfolioState := ⟨none, .empty, .empty, [], 0, 0⟩

def noticeLimit : Nat := 8

/-- `GET /orders/open` answers a list of these. -/
structure OpenOrderItemDto where
  orderId : Int
  clientOrderId : Int
  userId : Int
  symbolId : Int
  side : Int
  priceTicks : Int
  qty : Int
  remainingQty : Int
  tif : Int
  createdAtNs : Int
deriving DecidableEq, Repr

/-- `GET /portfolio` answers this, with the positions by symbol id. -/
structure PortfolioDto where
  userId : Int
  cashTicks : Int
  positions : List (Int × Int)
deriving DecidableEq, Repr

inductive PortfolioAction where
  | privateMessage (message : PrivateBody) (atMs : Option Int)
  | resync (openOrders : List OpenOrderItemDto) (portfolio : PortfolioDto)
      (nameById : Int → Option Name) (atMs : Option Int)
  | reset

/-! ## Numbers of a message -/

/-- Every number that `JSON.parse` reads becomes a double. -/
def parsed : PrivateBody → PrivateBody
  | .orderAccepted orderId clientOrderId symbol priceTicks qty side tif =>
      .orderAccepted (Double.ofInt orderId) (Double.ofInt clientOrderId) symbol
        (Double.ofInt priceTicks) (Double.ofInt qty) (Double.ofInt side) (Double.ofInt tif)
  | .orderRejected clientOrderId symbol reason =>
      .orderRejected (Double.ofInt clientOrderId) symbol reason
  | .fill orderId symbol priceTicks qty aggressorSide role =>
      .fill (Double.ofInt orderId) symbol (Double.ofInt priceTicks) (Double.ofInt qty)
        (Double.ofInt aggressorSide) role
  | .orderCancelled orderId clientOrderId symbol remainingQty reason =>
      .orderCancelled (Double.ofInt orderId) (Double.ofInt clientOrderId) symbol
        (Double.ofInt remainingQty) reason
  | .accountCreated initialCashTicks => .accountCreated (Double.ofInt initialCashTicks)
  | .cashCredited amountTicks => .cashCredited (Double.ofInt amountTicks)

def OpenOrderItemDto.parsed (item : OpenOrderItemDto) : OpenOrderItemDto where
  orderId := Double.ofInt item.orderId
  clientOrderId := Double.ofInt item.clientOrderId
  userId := Double.ofInt item.userId
  symbolId := Double.ofInt item.symbolId
  side := Double.ofInt item.side
  priceTicks := Double.ofInt item.priceTicks
  qty := Double.ofInt item.qty
  remainingQty := Double.ofInt item.remainingQty
  tif := Double.ofInt item.tif
  createdAtNs := Double.ofInt item.createdAtNs

def PortfolioDto.parsed (portfolio : PortfolioDto) : PortfolioDto where
  userId := Double.ofInt portfolio.userId
  cashTicks := Double.ofInt portfolio.cashTicks
  positions := portfolio.positions.map fun position =>
    (Double.ofInt position.1, Double.ofInt position.2)

/-! ## The reducer -/

/-- The number of a reason on the wire. -/
def reasonCode : RejectReason → Nat
  | .unknownSymbol => 1
  | .invalidPrice => 2
  | .invalidQuantity => 3
  | .invalidSide => 4
  | .invalidTif => 5
  | .insufficientCash => 6
  | .insufficientPosition => 7
  | .unknownOrder => 8
  | .notOrderOwner => 9
  | .duplicateClientOrderId => 10
  | .exchangeHalted => 11
  | .accountNotFound => 12
  | .accountAlreadyExists => 13

/-- `positions[name] ?? 0`, as far as it is a number. -/
def heldUnder (positions : Positions) (name : Name) : Option Int :=
  match positions.get? name with
  | some held => held
  | none => if name ∈ inheritedMembers then none else some 0

/-- The names that are kept are assigned one by one. -/
def withoutZero (positions : Positions) : Positions :=
  ⟨positions.entries.filter fun entry => entry.2 ≠ some 0 ∧ entry.1 ≠ protoMember,
    positions.unique.sublist (List.filter_sublist.map _)⟩

def feeBps : Role → Int
  | .maker => makerFeeBps
  | .taker => takerFeeBps

/-- Whether a user bought, told from its role and from who crossed the spread. -/
def userBought (role : Role) (aggressorSide : Int) : Bool :=
  match role with
  | .taker => decide (aggressorSide = 1)
  | .maker => decide (aggressorSide ≠ 1)

/-- What a fill leaves open of the order it names. -/
def rested (openOrders : Dict Int OpenOrderView) (orderId qty : Int) : Dict Int OpenOrderView :=
  match openOrders.get? orderId with
  | none => openOrders
  | some resting =>
      let remaining := Double.ofInt (resting.remainingQty - qty)
      if 0 < remaining then
        openOrders.set resting.orderId { resting with remainingQty := remaining }
      else openOrders.erase resting.orderId

/-- One position of a resync. -/
def putPosition (nameById : Int → Option Name) (positions : Positions) (position : Int × Int) :
    Positions :=
  match nameById position.1 with
  | some name =>
      if position.2 ≠ 0 ∧ name ≠ protoMember then positions.set name (some position.2)
      else positions
  | none => positions

/-- One open order of a resync. -/
def putOrder (nameById : Int → Option Name) (orders : Dict Int OpenOrderView)
    (order : OpenOrderItemDto) : Dict Int OpenOrderView :=
  match nameById order.symbolId with
  | some name => orders.set order.orderId ⟨order.orderId, order.clientOrderId, name, order.side,
      order.priceTicks, order.qty, order.remainingQty, order.tif⟩
  | none => orders

namespace PortfolioState

def withNotice (state : PortfolioState) (notice : Notice) : List Notice :=
  (notice :: state.notices).take noticeLimit

/-- The `OrderAccepted` branch. -/
def orderAccepted (next : PortfolioState) (atMs : Int) (order : OpenOrderView) : PortfolioState :=
  { next with
    openOrders := next.openOrders.set order.orderId order
    notices := next.withNotice ⟨.accepted, some order.clientOrderId, some order.symbol, "resting",
      some order.priceTicks, some order.qty, atMs⟩ }

/-- The `Fill` branch. -/
def filled (next : PortfolioState) (atMs orderId : Int) (symbol : Name)
    (priceTicks qty aggressorSide : Int) (role : Role) : PortfolioState :=
  let notional := Double.ofInt (priceTicks * qty)
  let fee := feeTicks notional (feeBps role)
  let bought := userBought role aggressorSide
  let cashDelta :=
    if bought then -Double.ofInt (notional + fee) else Double.ofInt (notional - fee)
  let positionDelta := if bought then qty else -qty
  { next with
    cashTicks := some (Double.ofInt (next.cashTicks.getD 0 + cashDelta))
    positions := withoutZero (next.positions.set symbol
      ((heldUnder next.positions symbol).map fun held => Double.ofInt (held + positionDelta)))
    openOrders := rested next.openOrders orderId qty
    notices := next.withNotice ⟨.filled, (next.openOrders.get? orderId).map (·.clientOrderId),
      some symbol, (if bought then "bought" else "sold") ++ " as " ++
        (match role with | .maker => "maker" | .taker => "taker"),
      some priceTicks, some qty, atMs⟩ }

/-- The `OrderCancelled` branch. -/
def orderCancelled (next : PortfolioState) (atMs orderId clientOrderId : Int)
    (symbol : Option Name) (remainingQty : Int) : PortfolioState :=
  let gone := next.openOrders.get? orderId
  { next with
    openOrders := next.openOrders.erase orderId
    notices := next.withNotice ⟨.cancelled, some ((gone.map (·.clientOrderId)).getD clientOrderId),
      symbol.or (gone.map (·.symbol)), "withdrawn", gone.map (·.priceTicks), some remainingQty,
      atMs⟩ }

/-- The `resync` action: replaced, never merged. -/
def replaced (state : PortfolioState) (openOrders : List OpenOrderItemDto)
    (portfolio : PortfolioDto) (nameById : Int → Option Name) (atMs : Int) : PortfolioState :=
  { state with
    cashTicks := some portfolio.cashTicks
    positions := portfolio.positions.foldl (putPosition nameById) .empty
    openOrders := openOrders.foldl (putOrder nameById) .empty
    resyncs := state.resyncs + 1
    notices := state.withNotice ⟨.resynced, none, none, "re-synchronised from the exchange",
      none, none, atMs⟩ }

/-- A message of the private stream. -/
def receive (state : PortfolioState) (message : PrivateBody) (atMs : Int) : PortfolioState :=
  let next := { state with applied := state.applied + 1 }
  match message with
  | .accountCreated initialCashTicks => { next with cashTicks := some initialCashTicks }
  | .cashCredited amountTicks =>
      { next with cashTicks := some (Double.ofInt (next.cashTicks.getD 0 + amountTicks)) }
  | .orderAccepted orderId clientOrderId (some symbol) priceTicks qty side tif =>
      next.orderAccepted atMs ⟨orderId, clientOrderId, symbol, side, priceTicks, qty, qty, tif⟩
  | .orderAccepted _ _ none _ _ _ _ => next
  | .orderRejected clientOrderId symbol reason =>
      { next with
        notices := next.withNotice ⟨.rejected, some clientOrderId, symbol,
          "refused — " ++ toString (reasonCode reason), none, none, atMs⟩ }
  | .fill orderId (some symbol) priceTicks qty aggressorSide role =>
      next.filled atMs orderId symbol priceTicks qty aggressorSide role
  | .fill _ none _ _ _ _ => next
  | .orderCancelled orderId clientOrderId symbol remainingQty _ =>
      next.orderCancelled atMs orderId clientOrderId symbol remainingQty

end PortfolioState

def reduce (state : PortfolioState) : PortfolioAction → PortfolioState
  | .reset => emptyPortfolio
  | .resync openOrders portfolio nameById atMs =>
      state.replaced openOrders portfolio nameById (atMs.getD 0)
  | .privateMessage message atMs => state.receive message (atMs.getD 0)

end QuantArena.Web
