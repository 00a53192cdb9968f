import QuantArena.Foundations.PriceTime

/-! The wire records of contracts v1 as the services hold them after unpacking.
The common header is left out: its version and discriminator select the
constructor here, and no modelled consumer reads the sequence halves. -/

set_option autoImplicit false

namespace QuantArena.Contracts

open Foundations

/-- The integer the contract assigns to each side. -/
def sideCode : PriceTime.Side → Int
  | .buy => 1
  | .sell => 2

/-- `_SIDE_TO_MODEL`: the side an integer names, if any. -/
def sideOf? (code : Int) : Option PriceTime.Side :=
  if code = 1 then some .buy else if code = 2 then some .sell else none

inductive Tif where
  | gtc
  | ioc
deriving DecidableEq, Repr

def tifCode : Tif → Int
  | .gtc => 1
  | .ioc => 2

def tifOf? (code : Int) : Option Tif :=
  if code = 1 then some .gtc else if code = 2 then some .ioc else none

inductive CancelReason where
  | userRequested
  | iocExpired
deriving DecidableEq, Repr

inductive RejectReason where
  | unknownSymbol
  | invalidPrice
  | invalidQuantity
  | invalidSide
  | invalidTif
  | insufficientCash
  | insufficientPosition
  | unknownOrder
  | notOrderOwner
  | duplicateClientOrderId
  | exchangeHalted
  | accountNotFound
  | accountAlreadyExists
deriving DecidableEq, Repr

@[simp] theorem sideOf?_sideCode (side : PriceTime.Side) : sideOf? (sideCode side) = some side := by
  cases side <;> rfl

theorem sideOf?_eq_some_iff {code : Int} {side : PriceTime.Side} :
    sideOf? code = some side ↔ code = sideCode side := by
  constructor
  · intro named
    unfold sideOf? at named
    split at named
    · cases named
      assumption
    · split at named
      · cases named
        assumption
      · cases named
  · rintro rfl
    exact sideOf?_sideCode side

@[simp] theorem tifOf?_tifCode (tif : Tif) : tifOf? (tifCode tif) = some tif := by
  cases tif <;> rfl

theorem tifOf?_eq_some_iff {code : Int} {tif : Tif} :
    tifOf? code = some tif ↔ code = tifCode tif := by
  constructor
  · intro named
    unfold tifOf? at named
    split at named
    · cases named
      assumption
    · split at named
      · cases named
        assumption
      · cases named
  · rintro rfl
    exact tifOf?_tifCode tif

/-! ## Inbound: gateway to engine -/

structure SubmitOrder where
  timestampNs : Int
  clientOrderId : Int
  userId : Int
  priceTicks : Int
  qty : Int
  symbolId : Int
  side : Int
  tif : Int
deriving DecidableEq, Repr

structure CancelOrder where
  timestampNs : Int
  clientOrderId : Int
  userId : Int
  targetClientOrderId : Int
deriving DecidableEq, Repr

structure CreateAccount where
  timestampNs : Int
  clientOrderId : Int
  userId : Int
deriving DecidableEq, Repr

structure CreditCash where
  timestampNs : Int
  clientOrderId : Int
  userId : Int
  amountTicks : Int
deriving DecidableEq, Repr

structure ConfigureReplay where
  timestampNs : Int
  clientOrderId : Int
  realSecondsPerSimulatedMinute : Int
  configHashHi : Int
  configHashLo : Int
deriving DecidableEq, Repr

/-- What an engine can read. `other` stands for every record type it ignores. -/
inductive Inbound where
  | submitOrder (order : SubmitOrder)
  | cancelOrder (cancel : CancelOrder)
  | createAccount (create : CreateAccount)
  | creditCash (credit : CreditCash)
  | configureReplay (replay : ConfigureReplay)
  | other
deriving DecidableEq, Repr

/-! ## Outbound: engine to its consumers -/

structure OrderAccepted where
  timestampNs : Int
  orderId : Int
  clientOrderId : Int
  userId : Int
  priceTicks : Int
  qty : Int
  symbolId : Int
  side : Int
  tif : Int
deriving DecidableEq, Repr

structure OrderRejected where
  timestampNs : Int
  clientOrderId : Int
  userId : Int
  symbolId : Int
  reason : RejectReason
deriving DecidableEq, Repr

structure Fill where
  timestampNs : Int
  makerOrderId : Int
  takerOrderId : Int
  makerUserId : Int
  takerUserId : Int
  priceTicks : Int
  qty : Int
  symbolId : Int
  aggressorSide : Int
deriving DecidableEq, Repr

structure OrderCancelled where
  timestampNs : Int
  orderId : Int
  clientOrderId : Int
  userId : Int
  remainingQty : Int
  symbolId : Int
  reason : CancelReason
deriving DecidableEq, Repr

structure BookChanged where
  timestampNs : Int
  priceTicks : Int
  qtyAtLevel : Int
  symbolId : Int
  side : Int
deriving DecidableEq, Repr

structure AccountCreated where
  timestampNs : Int
  clientOrderId : Int
  userId : Int
  initialCashTicks : Int
deriving DecidableEq, Repr

structure CashCredited where
  timestampNs : Int
  clientOrderId : Int
  userId : Int
  amountTicks : Int
deriving DecidableEq, Repr

structure ReplayConfigured where
  timestampNs : Int
  clientOrderId : Int
  realSecondsPerSimulatedMinute : Int
  configHashHi : Int
  configHashLo : Int
deriving DecidableEq, Repr

inductive Outbound where
  | orderAccepted (accepted : OrderAccepted)
  | orderRejected (rejected : OrderRejected)
  | fill (fill : Fill)
  | orderCancelled (cancelled : OrderCancelled)
  | bookChanged (changed : BookChanged)
  | accountCreated (created : AccountCreated)
  | cashCredited (credited : CashCredited)
  | replayConfigured (configured : ReplayConfigured)
deriving DecidableEq, Repr

def Outbound.timestampNs : Outbound → Int
  | .orderAccepted accepted => accepted.timestampNs
  | .orderRejected rejected => rejected.timestampNs
  | .fill trade => trade.timestampNs
  | .orderCancelled cancelled => cancelled.timestampNs
  | .bookChanged changed => changed.timestampNs
  | .accountCreated created => created.timestampNs
  | .cashCredited credited => credited.timestampNs
  | .replayConfigured configured => configured.timestampNs

end QuantArena.Contracts
