import Mathlib.Data.Finset.Insert
import QuantArena.Contracts.Records
import QuantArena.Foundations.Dict
import QuantArena.Foundations.Stream

/-! The in-memory ledger: cash, positions, fees and open orders, all derived from
the outbound stream. -/

set_option autoImplicit false

namespace QuantArena

open Foundations Contracts

namespace Ledger

def makerFeeBps : Int := 2
def takerFeeBps : Int := 10
def bpsDenominator : Int := 10000

structure OpenOrderRecord where
  orderId : Int
  clientOrderId : Int
  userId : Int
  symbolId : Int
  side : Int
  priceTicks : Int
  qty : Int
  remainingQty : Int
  tif : Int
  createdAtNs : Int
deriving DecidableEq, Repr

structure FeeBreakdown where
  notional : Int
  makerFeeTicks : Int
  takerFeeTicks : Int
  totalFeeTicks : Int
deriving DecidableEq, Repr

def calculateFees (priceTicks qty : Int) : FeeBreakdown :=
  let notional := priceTicks * qty
  let makerFee := notional * makerFeeBps / bpsDenominator
  let takerFee := notional * takerFeeBps / bpsDenominator
  ⟨notional, makerFee, takerFee, makerFee + takerFee⟩

/-- Who buys and sells in a fill, and what it does to their cash. The aggressor is the taker. -/
structure Settlement where
  buyerId : Int
  sellerId : Int
  buyerCashDelta : Int
  sellerCashDelta : Int
deriving DecidableEq, Repr

def settlement (fill : Fill) : Settlement :=
  let fees := calculateFees fill.priceTicks fill.qty
  if fill.aggressorSide = sideCode .buy then
    ⟨fill.takerUserId, fill.makerUserId,
      -(fees.notional + fees.takerFeeTicks), fees.notional - fees.makerFeeTicks⟩
  else
    ⟨fill.makerUserId, fill.takerUserId,
      -(fees.notional + fees.makerFeeTicks), fees.notional - fees.takerFeeTicks⟩

/-- What is left of an open order once `qty` is gone from it: nothing, if that was the rest. -/
def OpenOrderRecord.less (qty : Int) (order : OpenOrderRecord) : Option OpenOrderRecord :=
  if order.remainingQty - qty ≤ 0 then none
  else some { order with remainingQty := order.remainingQty - qty }

end Ledger

structure Ledger where
  cashBalances : Dict Int Int
  /-- By user and symbol. -/
  positions : Dict (Int × Int) Int
  openOrders : Dict Int Ledger.OpenOrderRecord
  houseFeeTicks : Int
  totalDepositsTicks : Int
  lastSeq : StreamId
  eventsProcessed : Int
  dirtyAccounts : Finset Int
  dirtyPositions : Finset (Int × Int)
  dirtyOrders : Finset Int

namespace Ledger

def new : Ledger := ⟨.empty, .empty, .empty, 0, 0, .start, 0, ∅, ∅, ∅⟩

def opened (accepted : OrderAccepted) : OpenOrderRecord where
  orderId := accepted.orderId
  clientOrderId := accepted.clientOrderId
  userId := accepted.userId
  symbolId := accepted.symbolId
  side := accepted.side
  priceTicks := accepted.priceTicks
  qty := accepted.qty
  remainingQty := accepted.qty
  tif := accepted.tif
  createdAtNs := accepted.timestampNs

/-- The `Fill` branch of `apply`. -/
def applyFill (ledger : Ledger) (fill : Fill) : Ledger :=
  let legs := settlement fill
  let buyerKey := (legs.buyerId, fill.symbolId)
  let sellerKey := (legs.sellerId, fill.symbolId)
  { ledger with
    houseFeeTicks :=
      ledger.houseFeeTicks + (calculateFees fill.priceTicks fill.qty).totalFeeTicks
    cashBalances := (ledger.cashBalances.add legs.buyerId legs.buyerCashDelta).add
      legs.sellerId legs.sellerCashDelta
    dirtyAccounts := insert legs.sellerId (insert legs.buyerId ledger.dirtyAccounts)
    dirtyOrders := insert fill.takerOrderId (insert fill.makerOrderId ledger.dirtyOrders)
    positions := (ledger.positions.add buyerKey fill.qty).add sellerKey (-fill.qty)
    dirtyPositions := insert sellerKey (insert buyerKey ledger.dirtyPositions)
    openOrders := (ledger.openOrders.alter fill.makerOrderId (·.less fill.qty)).alter
      fill.takerOrderId (·.less fill.qty) }

/-- `apply`, past the two lines that count the event. -/
def applyRecord (ledger : Ledger) : Outbound → Ledger
  | .accountCreated created =>
      { ledger with
        cashBalances := ledger.cashBalances.set created.userId created.initialCashTicks
        dirtyAccounts := insert created.userId ledger.dirtyAccounts
        totalDepositsTicks := ledger.totalDepositsTicks + created.initialCashTicks }
  | .cashCredited credited =>
      { ledger with
        cashBalances := ledger.cashBalances.add credited.userId credited.amountTicks
        dirtyAccounts := insert credited.userId ledger.dirtyAccounts
        totalDepositsTicks := ledger.totalDepositsTicks + credited.amountTicks }
  | .orderAccepted accepted =>
      { ledger with
        dirtyOrders := insert accepted.orderId ledger.dirtyOrders
        openOrders := ledger.openOrders.set accepted.orderId (opened accepted) }
  | .orderCancelled cancelled =>
      { ledger with
        dirtyOrders := insert cancelled.orderId ledger.dirtyOrders
        openOrders := ledger.openOrders.alter cancelled.orderId (·.less cancelled.remainingQty) }
  | .fill fill => ledger.applyFill fill
  | _ => ledger

def apply (ledger : Ledger) (record : Outbound) (streamId : Option StreamId) : Ledger :=
  { ledger with
    lastSeq := streamId.getD ledger.lastSeq
    eventsProcessed := ledger.eventsProcessed + 1 }.applyRecord record

def applyAll (ledger : Ledger) (events : List (Outbound × Option StreamId)) : Ledger :=
  events.foldl (fun ledger event => ledger.apply event.1 event.2) ledger

def getBalance (ledger : Ledger) (userId : Int) : Int :=
  ledger.cashBalances.getD userId 0

def getPosition (ledger : Ledger) (userId symbolId : Int) : Int :=
  ledger.positions.getD (userId, symbolId) 0

def totalUserCash (ledger : Ledger) : Int :=
  ledger.cashBalances.values.sum

def totalSystemCash (ledger : Ledger) : Int :=
  ledger.totalUserCash + ledger.houseFeeTicks

end Ledger

end QuantArena
