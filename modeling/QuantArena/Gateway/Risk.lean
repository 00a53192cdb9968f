import QuantArena.Foundations.Fault
import QuantArena.Foundations.Heap
import QuantArena.Ledger.Ledger

/-! Risk checks and reservation accounting in the gateway's memory. A buy commits
cash, a sell commits units, and both are given back as the order fills or leaves. -/

set_option autoImplicit false

namespace QuantArena.Gateway

open Foundations Contracts Ledger

/-- The cash a buy commits: notional plus the taker's fee, rounded up per unit. -/
def buyCost (priceTicks qty : Int) : Int :=
  let feePerUnit := -(-priceTicks * takerFeeBps / bpsDenominator)
  qty * (priceTicks + feePerUnit)

structure Reservation where
  userId : Int
  orderId : Option Int
  clientOrderId : Int
  symbolId : Int
  side : Int
  priceTicks : Int
  qty : Int
deriving DecidableEq, Repr, Inhabited

/-- `max(0, amount)`, as the release paths bound what they leave. -/
def clamped (amount : Int) : Int := max 0 amount

structure RiskState where
  settledCash : Dict Int Int
  /-- Cash committed to buys, by user. -/
  reserved : Dict Int Int
  /-- By user and symbol. -/
  positions : Dict (Int × Int) Int
  /-- Units committed to sells, by user and symbol. -/
  reservedQty : Dict (Int × Int) Int
  /-- The `Reservation` objects, which the two maps below and the requests share. -/
  objects : Heap Reservation
  pendingByClient : Dict (Int × Int) Ref
  openOrders : Dict Int Ref
  marketMakers : List Int
  lastSeq : StreamId

namespace RiskState

/-- `from_db` on an empty database. -/
def new (marketMakers : List Int) : RiskState :=
  ⟨.empty, .empty, .empty, .empty, .empty, .empty, .empty, marketMakers, .start⟩

def object (risk : RiskState) (ref : Ref) : Reservation := risk.objects.read ref

/-! ## Queries -/

/-- The prices of the open orders of one side of a symbol. -/
def prices (risk : RiskState) (symbolId side : Int) : List Int :=
  ((risk.openOrders.values.map risk.object).filter fun order =>
    order.symbolId = symbolId ∧ order.side = side ∧ order.qty > 0).map (·.priceTicks)

def bestAsk (risk : RiskState) (symbolId : Int) : Option Int :=
  (risk.prices symbolId (sideCode .sell)).min?

def bestBid (risk : RiskState) (symbolId : Int) : Option Int :=
  (risk.prices symbolId (sideCode .buy)).max?

/-- The limit a market order is sent with, unless the other side is empty. -/
def bandedMarketPrice (risk : RiskState) (symbolId side bandBps : Int) : Option Int :=
  if side = sideCode .buy then
    (risk.bestAsk symbolId).map fun reference => (reference * (10000 + bandBps) + 9999) / 10000
  else
    (risk.bestBid symbolId).map fun reference => max 1 (reference * (10000 - bandBps) / 10000)

def availableCash (risk : RiskState) (userId : Int) : Int :=
  risk.settledCash.getD userId 0 - risk.reserved.getD userId 0

def availablePosition (risk : RiskState) (userId symbolId : Int) : Int :=
  risk.positions.getD (userId, symbolId) 0 - risk.reservedQty.getD (userId, symbolId) 0

def isMarketMaker (risk : RiskState) (userId : Int) : Bool := userId ∈ risk.marketMakers

def rejectReasonFor (risk : RiskState) (userId symbolId side priceTicks qty : Int) :
    Option RejectReason :=
  if side = sideCode .buy then
    if risk.availableCash userId < buyCost priceTicks qty then some .insufficientCash else none
  else if risk.isMarketMaker userId then none
  else if risk.availablePosition userId symbolId < qty then some .insufficientPosition
  else none

/-! ## Reservations -/

/-- Adds what an order commits, in the resource its side consumes. -/
def commit (risk : RiskState) (userId symbolId side priceTicks qty : Int) : RiskState :=
  if side = sideCode .buy then
    { risk with reserved := risk.reserved.add userId (buyCost priceTicks qty) }
  else
    { risk with reservedQty := risk.reservedQty.add (userId, symbolId) qty }

/-- The new object is at `risk.objects.fresh`. -/
def reserve (risk : RiskState) (userId clientOrderId symbolId side priceTicks qty : Int) :
    Except RejectReason RiskState :=
  match risk.rejectReasonFor userId symbolId side priceTicks qty with
  | some reason => .error reason
  | none =>
      let committed := risk.commit userId symbolId side priceTicks qty
      .ok { committed with
        objects := risk.objects.alloc ⟨userId, none, clientOrderId, symbolId, side, priceTicks, qty⟩
        pendingByClient :=
          risk.pendingByClient.set (userId, clientOrderId) risk.objects.fresh }

section Release

-- The source bounds with `clamped`, as `release` and `apply` below do.
variable (bound : Int → Int)

def releaseWith (risk : RiskState) (reservation : Reservation) (qty : Int) : RiskState :=
  if reservation.side = sideCode .buy then
    { risk with
      reserved := risk.reserved.set reservation.userId
        (bound (risk.reserved.getD reservation.userId 0 - buyCost reservation.priceTicks qty)) }
  else
    let key := (reservation.userId, reservation.symbolId)
    { risk with
      reservedQty := risk.reservedQty.set key (bound (risk.reservedQty.getD key 0 - qty)) }

/-- `_release_remaining`. -/
def releaseRemainingWith (risk : RiskState) (orderId : Int) : RiskState :=
  match risk.openOrders.get? orderId with
  | none => risk
  | some ref =>
      { risk with openOrders := risk.openOrders.erase orderId }.releaseWith bound (risk.object ref)
        (risk.object ref).qty

/-- `_release_fill`. -/
def releaseFillWith (risk : RiskState) (orderId qty : Int) : RiskState :=
  match risk.openOrders.get? orderId with
  | none => risk
  | some ref =>
      let left := bound ((risk.object ref).qty - qty)
      { risk.releaseWith bound (risk.object ref) qty with
        objects := risk.objects.write ref { risk.object ref with qty := left }
        openOrders := risk.openOrders.alter orderId fun ref => if left = 0 then none else some ref }

/-! ## The outbound stream -/

/-- The `OrderAccepted` branch: adopts the pending reservation, or replays it. -/
def adopt (risk : RiskState) (accepted : OrderAccepted) : RiskState :=
  match risk.pendingByClient.get? (accepted.userId, accepted.clientOrderId) with
  | none =>
      let committed := risk.commit accepted.userId accepted.symbolId accepted.side
        accepted.priceTicks accepted.qty
      { committed with
        objects := risk.objects.alloc ⟨accepted.userId, some accepted.orderId,
          accepted.clientOrderId, accepted.symbolId, accepted.side, accepted.priceTicks,
          accepted.qty⟩
        openOrders := risk.openOrders.set accepted.orderId risk.objects.fresh }
  | some ref =>
      { risk with
        pendingByClient := risk.pendingByClient.erase (accepted.userId, accepted.clientOrderId)
        objects := risk.objects.write ref
          { risk.object ref with orderId := some accepted.orderId }
        openOrders := risk.openOrders.set accepted.orderId ref }

/-- What a fill does to settled cash and positions. -/
def settle (risk : RiskState) (fill : Fill) : RiskState :=
  let legs := settlement fill
  { risk with
    settledCash := (risk.settledCash.add legs.buyerId legs.buyerCashDelta).add legs.sellerId
      legs.sellerCashDelta
    positions := (risk.positions.add (legs.buyerId, fill.symbolId) fill.qty).add
      (legs.sellerId, fill.symbolId) (-fill.qty) }

def applyWith (risk : RiskState) : Outbound → RiskState
  | .accountCreated created =>
      { risk with settledCash := risk.settledCash.set created.userId created.initialCashTicks }
  | .cashCredited credited =>
      { risk with settledCash := risk.settledCash.add credited.userId credited.amountTicks }
  | .orderAccepted accepted => risk.adopt accepted
  | .fill fill => ((risk.settle fill).releaseFillWith bound fill.makerOrderId
      fill.qty).releaseFillWith bound fill.takerOrderId fill.qty
  | .orderCancelled cancelled => risk.releaseRemainingWith bound cancelled.orderId
  | _ => risk

end Release

def release (risk : RiskState) (reservation : Reservation) (qty : Int) : RiskState :=
  risk.releaseWith clamped reservation qty

def apply (risk : RiskState) (record : Outbound) (streamId : Option StreamId) : RiskState :=
  { risk with lastSeq := streamId.getD risk.lastSeq }.applyWith clamped record

def applyAll (risk : RiskState) (events : List (Outbound × Option StreamId)) : RiskState :=
  events.foldl (fun risk event => risk.apply event.1 event.2) risk

/-- `replay_from_stream`, once it has read everything after `last_seq`. -/
def replayFromStream (risk : RiskState) (stream : Stream Outbound) : RiskState :=
  risk.applyAll ((stream.entries.filter fun entry => risk.lastSeq < entry.1).map fun entry =>
    (entry.2, some entry.1))

end RiskState

end QuantArena.Gateway
