import Mathlib.Data.Prod.Lex
import QuantArena.Foundations.Canonical
import QuantArena.Gateway.Overdraft

/-! The risk state's checkpoint. What is pending is left out of it, with what it commits: its
acceptance comes later, and reserves again what nothing is pending for. -/

set_option autoImplicit false

namespace QuantArena.Gateway

open Foundations Contracts

/-- What `dump_state` gives to `json.dumps`, before it is text. -/
structure RiskDump where
  lastSeq : StreamId
  settledCash : List (Int × Int)
  reserved : List (Int × Int)
  positions : List ((Int × Int) × Int)
  reservedQty : List ((Int × Int) × Int)
  /-- The fields of each `Reservation`, in their order. -/
  openOrders : List Reservation

namespace RiskState

/-- The loop of `dump_state` over what is pending, for the buys. -/
def reservedWithoutPending (risk : RiskState) : Dict Int Int :=
  risk.pendingByClient.values.foldl (fun reserved ref =>
    let pending := risk.object ref
    if pending.side = sideCode .buy then
      reserved.add pending.userId (-buyCost pending.priceTicks pending.qty)
    else reserved) risk.reserved

/-- The same loop, for the sells. -/
def reservedQtyWithoutPending (risk : RiskState) : Dict (Int × Int) Int :=
  risk.pendingByClient.values.foldl (fun reservedQty ref =>
    let pending := risk.object ref
    if pending.side = sideCode .buy then reservedQty
    else reservedQty.add (pending.userId, pending.symbolId) (-pending.qty)) risk.reservedQty

/-- Rows of open orders are told apart by their ids, which open orders have. -/
def dumpState (risk : RiskState) : RiskDump where
  lastSeq := risk.lastSeq
  settledCash := canonical (·.1) risk.settledCash.entries
  reserved := canonical (·.1) (risk.reservedWithoutPending.entries.filter (·.2 ≠ 0))
  positions := canonical (fun entry => toLex entry.1) risk.positions.entries
  reservedQty := canonical (fun entry => toLex entry.1)
    (risk.reservedQtyWithoutPending.entries.filter (·.2 ≠ 0))
  openOrders := canonical (fun order => toLex (order.userId, order.orderId.getD 0))
    (risk.openOrders.values.map risk.object)

/-- A new object for one row of open orders. -/
def listOpen (risk : RiskState) (row : Int × Reservation) : RiskState :=
  { risk with
    objects := risk.objects.alloc row.2
    openOrders := risk.openOrders.set row.1 risk.objects.fresh }

/-- The cash that the open buys commit. `load_state` does not read it back. -/
def recommitted (risk : RiskState) : Dict Int Int :=
  risk.openOrders.values.foldl (fun reserved ref =>
    let reservation := risk.object ref
    if reservation.side = sideCode .buy then
      reserved.add reservation.userId (buyCost reservation.priceTicks reservation.qty)
    else reserved) .empty

/-- Fails where a row has no order id, as `int(None)` does. -/
def loadState (risk : RiskState) (raw : RiskDump) : Option RiskState := do
  let rows ← raw.openOrders.mapM fun order => order.orderId.map fun orderId => (orderId, order)
  let listed := rows.foldl listOpen { risk with
    lastSeq := raw.lastSeq
    settledCash := .ofEntries raw.settledCash
    positions := .ofEntries raw.positions
    reservedQty := .ofEntries raw.reservedQty
    pendingByClient := .empty
    openOrders := .empty }
  return { listed with reserved := listed.recommitted }

end RiskState

end QuantArena.Gateway
