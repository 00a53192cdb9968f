import Mathlib.Data.Prod.Lex
import QuantArena.Foundations.Canonical
import QuantArena.Foundations.Json
import QuantArena.Ledger.Ledger

/-! The ledger's checkpoint: its state as JSON text, and a ledger rebuilt from it. -/

set_option autoImplicit false

namespace QuantArena.Ledger

open Foundations Contracts

/-! ## The document's names -/

namespace Names

theorem lastSeq_plain : ∀ char ∈ "last_seq".toList, Plain char := plain_of_all rfl

def cash : Text := ⟨"cash".toList, plain_of_all rfl⟩
def positions : Text := ⟨"positions".toList, plain_of_all rfl⟩
def openOrders : Text := ⟨"open_orders".toList, plain_of_all rfl⟩
def houseFeeTicks : Text := ⟨"house_fee_ticks".toList, plain_of_all rfl⟩
def totalDepositsTicks : Text := ⟨"total_deposits_ticks".toList, plain_of_all rfl⟩
def lastSeq : Text := ⟨"last_seq".toList, lastSeq_plain⟩
def eventsProcessed : Text := ⟨"events_processed".toList, plain_of_all rfl⟩

end Names

def cashRow (entry : Int × Int) : List Int := [entry.1, entry.2]

def ofCashRow : List Int → Option (Int × Int)
  | [userId, ticks] => some (userId, ticks)
  | _ => none

def positionRow (entry : (Int × Int) × Int) : List Int := [entry.1.1, entry.1.2, entry.2]

def ofPositionRow : List Int → Option ((Int × Int) × Int)
  | [userId, symbolId, qty] => some ((userId, symbolId), qty)
  | _ => none

/-- `astuple`. -/
def OpenOrderRecord.row (order : OpenOrderRecord) : List Int :=
  [order.orderId, order.clientOrderId, order.userId, order.symbolId, order.side,
    order.priceTicks, order.qty, order.remainingQty, order.tif, order.createdAtNs]

def OpenOrderRecord.ofRow : List Int → Option OpenOrderRecord
  | [orderId, clientOrderId, userId, symbolId, side, priceTicks, qty, remainingQty, tif,
      createdAtNs] =>
      some ⟨orderId, clientOrderId, userId, symbolId, side, priceTicks, qty, remainingQty, tif,
        createdAtNs⟩
  | _ => none

/-- What `dump_state` gives to `json.dumps`. Rows begin with what tells them apart, so sorting
them compares nothing else. -/
def document (ledger : Ledger) : Json := .obj [
  (Names.cash, .ofRows ((canonical (·.1) ledger.cashBalances.entries).map cashRow)),
  (Names.positions, .ofRows
    ((canonical (fun entry => toLex entry.1) ledger.positions.entries).map positionRow)),
  (Names.openOrders, .ofRows
    ((canonical (·.orderId) ledger.openOrders.values).map OpenOrderRecord.row)),
  (Names.houseFeeTicks, .int ledger.houseFeeTicks),
  (Names.totalDepositsTicks, .int ledger.totalDepositsTicks),
  (Names.lastSeq, .str (Json.streamIdText ledger.lastSeq)),
  (Names.eventsProcessed, .int ledger.eventsProcessed)]

def dumpState (ledger : Ledger) : List Char := ledger.document.dumps

def ofDocument (raw : Json) : Option Ledger := do
  let cash ← (← (← raw.field? Names.cash).toRows?).mapM ofCashRow
  let positions ← (← (← raw.field? Names.positions).toRows?).mapM ofPositionRow
  let orders ← (← (← raw.field? Names.openOrders).toRows?).mapM OpenOrderRecord.ofRow
  let houseFeeTicks ← (← raw.field? Names.houseFeeTicks).toInt?
  let totalDepositsTicks ← (← raw.field? Names.totalDepositsTicks).toInt?
  let lastSeq ← Json.toStreamId? (← raw.field? Names.lastSeq)
  let eventsProcessed ← (← raw.field? Names.eventsProcessed).toInt?
  return { new with
    cashBalances := .ofEntries cash
    positions := .ofEntries positions
    openOrders := .ofEntries (orders.map fun order => (order.orderId, order))
    houseFeeTicks := houseFeeTicks
    totalDepositsTicks := totalDepositsTicks
    lastSeq := lastSeq
    eventsProcessed := eventsProcessed }

def loadState (data : List Char) : Option Ledger := (Json.loads data).bind ofDocument

/-! ## Ledgers that dump alike -/

/-- The same state, in whatever order it was built up. What is dirty is not part of it. -/
structure Alike (left right : Ledger) : Prop where
  cash : left.cashBalances.Same right.cashBalances
  positions : left.positions.Same right.positions
  openOrders : left.openOrders.Same right.openOrders
  houseFeeTicks : left.houseFeeTicks = right.houseFeeTicks
  totalDepositsTicks : left.totalDepositsTicks = right.totalDepositsTicks
  lastSeq : left.lastSeq = right.lastSeq
  eventsProcessed : left.eventsProcessed = right.eventsProcessed

/-- Open orders are kept under their own ids. -/
def Keyed (ledger : Ledger) : Prop :=
  ∀ orderId order, ledger.openOrders.get? orderId = some order → order.orderId = orderId

variable {ledger left right : Ledger}

theorem Alike.apply (alike : left.Alike right) (record : Outbound)
    (streamId : Option StreamId) : (left.apply record streamId).Alike (right.apply record streamId) := by
  obtain ⟨cash, positions, openOrders, fees, deposits, lastSeq, events⟩ := alike
  have seq : streamId.getD left.lastSeq = streamId.getD right.lastSeq := by rw [lastSeq]
  have counted : left.eventsProcessed + 1 = right.eventsProcessed + 1 := by rw [events]
  cases record with
  | accountCreated created =>
      exact ⟨cash.set _ _, positions, openOrders, fees, by simp [Ledger.apply, applyRecord, deposits],
        seq, counted⟩
  | cashCredited credited =>
      exact ⟨cash.add _ _, positions, openOrders, fees, by simp [Ledger.apply, applyRecord, deposits],
        seq, counted⟩
  | orderAccepted accepted =>
      exact ⟨cash, positions, openOrders.set _ _, fees, deposits, seq, counted⟩
  | orderCancelled cancelled =>
      exact ⟨cash, positions, openOrders.alter _ _, fees, deposits, seq, counted⟩
  | fill fill =>
      exact ⟨(cash.add _ _).add _ _, (positions.add _ _).add _ _,
        (openOrders.alter _ _).alter _ _,
        by simp [Ledger.apply, applyRecord, applyFill, fees], deposits, seq, counted⟩
  | orderRejected _ => exact ⟨cash, positions, openOrders, fees, deposits, seq, counted⟩
  | bookChanged _ => exact ⟨cash, positions, openOrders, fees, deposits, seq, counted⟩
  | replayConfigured _ => exact ⟨cash, positions, openOrders, fees, deposits, seq, counted⟩

theorem Alike.applyAll (alike : left.Alike right) (events : List (Outbound × Option StreamId)) :
    (left.applyAll events).Alike (right.applyAll events) := by
  induction events generalizing left right with
  | nil => exact alike
  | cons event rest ih => exact ih (alike.apply event.1 event.2)

theorem alter_less_keyed {orders : Dict Int OpenOrderRecord}
    (keyed : ∀ orderId order, orders.get? orderId = some order → order.orderId = orderId)
    (altered qty : Int) :
    ∀ orderId order, (orders.alter altered (·.less qty)).get? orderId = some order →
      order.orderId = orderId := by
  intro orderId order found
  rw [Dict.get?_alter] at found
  split at found
  · rename_i same
    obtain ⟨old, present, left⟩ := Option.bind_eq_some_iff.mp found
    unfold OpenOrderRecord.less at left
    split at left
    · cases left
    · cases left
      exact (keyed altered old present).trans same.symm
  · exact keyed orderId order found

theorem Keyed.apply (keyed : ledger.Keyed) (record : Outbound) (streamId : Option StreamId) :
    (ledger.apply record streamId).Keyed := by
  cases record with
  | orderAccepted accepted =>
      intro orderId order found
      simp only [Ledger.apply, applyRecord, Dict.get?_set] at found
      split at found
      · rename_i same
        cases found
        exact same.symm
      · exact keyed orderId order found
  | orderCancelled cancelled => exact alter_less_keyed keyed _ _
  | fill fill => exact alter_less_keyed (alter_less_keyed keyed _ _) _ _
  | accountCreated _ => exact keyed
  | cashCredited _ => exact keyed
  | orderRejected _ => exact keyed
  | bookChanged _ => exact keyed
  | replayConfigured _ => exact keyed

theorem Keyed.applyAll (keyed : ledger.Keyed) (events : List (Outbound × Option StreamId)) :
    (ledger.applyAll events).Keyed := by
  induction events generalizing ledger with
  | nil => exact keyed
  | cons event rest ih => exact ih (keyed.apply event.1 event.2)

theorem new_keyed : new.Keyed := fun _ _ found => by cases found

/-! ## The round trip -/

theorem Keyed.values_apart (keyed : ledger.Keyed) :
    ∀ first ∈ ledger.openOrders.values, ∀ second ∈ ledger.openOrders.values,
      first.orderId = second.orderId → first = second := by
  intro first firstMember second secondMember same
  obtain ⟨firstId, firstFound⟩ := Dict.mem_values_iff.mp firstMember
  obtain ⟨secondId, secondFound⟩ := Dict.mem_values_iff.mp secondMember
  rw [← keyed firstId first firstFound] at firstFound
  rw [← keyed secondId second secondFound, ← same, firstFound] at secondFound
  exact Option.some.inj secondFound

theorem Alike.dumpState_eq (alike : left.Alike right) (keyed : right.Keyed) :
    left.dumpState = right.dumpState := by
  have cash : canonical (·.1) left.cashBalances.entries =
      canonical (·.1) right.cashBalances.entries :=
    canonical_eq alike.cash.entries_perm left.cashBalances.entries_apart
  have positions : canonical (fun entry => toLex entry.1) left.positions.entries =
      canonical (fun entry => toLex entry.1) right.positions.entries :=
    canonical_eq alike.positions.entries_perm left.positions.entries_apart
  have orders : canonical (·.orderId) left.openOrders.values =
      canonical (·.orderId) right.openOrders.values :=
    (canonical_eq alike.openOrders.values_perm.symm keyed.values_apart).symm
  rw [dumpState, dumpState, document, document, cash, positions, orders, alike.houseFeeTicks,
    alike.totalDepositsTicks, alike.lastSeq, alike.eventsProcessed]

/-- A checkpoint gives back the ledger it was taken of. -/
theorem loadState_dumpState (keyed : ledger.Keyed) :
    ∃ loaded, loadState ledger.dumpState = some loaded ∧ loaded.Alike ledger := by
  have cash := @Json.mapM_map _ _ _ cashRow ofCashRow id
    (canonical (·.1) ledger.cashBalances.entries) fun _ _ => rfl
  have positions := @Json.mapM_map _ _ _ positionRow ofPositionRow id
    (canonical (fun entry => toLex entry.1) ledger.positions.entries) fun _ _ => rfl
  have orders := @Json.mapM_map _ _ _ OpenOrderRecord.row OpenOrderRecord.ofRow id
    (canonical (·.orderId) ledger.openOrders.values) fun _ _ => rfl
  rw [List.map_id] at cash positions orders
  have own : ((canonical (·.orderId) ledger.openOrders.values).map fun order =>
      (order.orderId, order)).Perm ledger.openOrders.entries := by
    refine ((canonical_perm _ _).map _).trans ?_
    rw [Dict.values, List.map_map]
    refine List.Perm.of_eq ((List.map_congr_left fun entry member => ?_).trans (List.map_id _))
    exact Prod.ext (keyed entry.1 entry.2 (Dict.get?_eq_some_iff.mpr member)) rfl
  refine ⟨{ new with
    cashBalances := .ofEntries (canonical (·.1) ledger.cashBalances.entries)
    positions := .ofEntries (canonical (fun entry => toLex entry.1) ledger.positions.entries)
    openOrders := .ofEntries ((canonical (·.orderId) ledger.openOrders.values).map fun order =>
      (order.orderId, order))
    houseFeeTicks := ledger.houseFeeTicks
    totalDepositsTicks := ledger.totalDepositsTicks
    lastSeq := ledger.lastSeq
    eventsProcessed := ledger.eventsProcessed }, ?_, ?_⟩
  · have fields : ∀ name, Json.field? ledger.document name =
        (List.find? (fun field => field.1 = name) [
          (Names.cash, Json.ofRows ((canonical (·.1) ledger.cashBalances.entries).map cashRow)),
          (Names.positions, Json.ofRows
            ((canonical (fun entry => toLex entry.1) ledger.positions.entries).map positionRow)),
          (Names.openOrders, Json.ofRows
            ((canonical (·.orderId) ledger.openOrders.values).map OpenOrderRecord.row)),
          (Names.houseFeeTicks, Json.int ledger.houseFeeTicks),
          (Names.totalDepositsTicks, Json.int ledger.totalDepositsTicks),
          (Names.lastSeq, Json.str (Json.streamIdText ledger.lastSeq)),
          (Names.eventsProcessed, Json.int ledger.eventsProcessed)]).map Prod.snd := fun _ => rfl
    rw [loadState, dumpState, Json.loads_dumps, Option.bind_some, ofDocument]
    simp +decide [fields, Json.toInt?, cash, positions, orders]
  · exact ⟨Dict.ofEntries_same (canonical_perm _ _), Dict.ofEntries_same (canonical_perm _ _),
      Dict.ofEntries_same own, rfl, rfl, rfl, rfl⟩

/-- Interrupted anywhere and resumed from its checkpoint, the ledger ends with the same bytes. -/
theorem checkpoint_is_invisible (before after : List (Outbound × Option StreamId)) :
    ∃ loaded, loadState (new.applyAll before).dumpState = some loaded ∧
      (loaded.applyAll after).dumpState = (new.applyAll (before ++ after)).dumpState := by
  have keyed := new_keyed.applyAll before
  obtain ⟨loaded, read, alike⟩ := loadState_dumpState keyed
  refine ⟨loaded, read, ?_⟩
  have whole : new.applyAll (before ++ after) = (new.applyAll before).applyAll after :=
    List.foldl_append
  rw [whole]
  exact (alike.applyAll after).dumpState_eq (keyed.applyAll after)

end QuantArena.Ledger
