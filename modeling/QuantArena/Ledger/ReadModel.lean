import Mathlib.Data.Finset.Image
import Mathlib.Data.Multiset.Filter
import QuantArena.Ledger.Ledger

/-! The ledger's consumer and the tables it keeps. A flush is one transaction; whether
it commits, and whether the consumer learns of it, is the database's choice. -/

set_option autoImplicit false

namespace QuantArena.Ledger

open Foundations Contracts

/-- The tables, without the columns that only tell when a row was written. -/
structure Database where
  /-- Cash by user, the table's unique key. -/
  accounts : Int → Option Int
  /-- No key: rows of user, symbol and quantity. -/
  positions : Multiset ((Int × Int) × Int)
  openOrders : Int → Option OpenOrderRecord
  /-- The row with id 1. -/
  houseFees : Option Int

/-- What `take_dirty` hands over. -/
structure Dirty where
  accounts : Finset Int
  positions : Finset (Int × Int)
  orders : Finset Int

def takeDirty (ledger : Ledger) : Dirty × Ledger :=
  (⟨ledger.dirtyAccounts, ledger.dirtyPositions, ledger.dirtyOrders⟩,
    { ledger with dirtyAccounts := ∅, dirtyPositions := ∅, dirtyOrders := ∅ })

/-- Every key there is, as a full flush writes them. -/
def everything (ledger : Ledger) : Dirty where
  accounts := ledger.cashBalances.keys.toFinset
  positions := ledger.positions.keys.toFinset
  orders := ledger.openOrders.keys.toFinset

/-- `ON CONFLICT (order_id) DO UPDATE SET remaining_qty`. -/
def upsertOrder (row : Option OpenOrderRecord) (order : OpenOrderRecord) : OpenOrderRecord :=
  match row with
  | none => order
  | some row => { row with remainingQty := order.remainingQty }

/-- The rows of `positions` written for some keys: a holding of zero has none. -/
def positionRows (ledger : Ledger) (keys : Finset (Int × Int)) : Multiset ((Int × Int) × Int) :=
  (keys.filter fun key => ledger.positions.getD key 0 ≠ 0).val.map fun key =>
    (key, ledger.positions.getD key 0)

/-- The transaction of `flush_to_db`. -/
def flush (ledger : Ledger) (dirty : Dirty) (full : Bool) (database : Database) : Database where
  accounts userId :=
    -- A user marked as dirty has a balance.
    if userId ∈ dirty.accounts then
      (ledger.cashBalances.get? userId).or (database.accounts userId)
    else database.accounts userId
  positions :=
    (if full then 0 else database.positions.filter fun row => row.1 ∉ dirty.positions) +
      ledger.positionRows dirty.positions
  openOrders orderId :=
    let row := if full then none else database.openOrders orderId
    if orderId ∈ dirty.orders then
      (ledger.openOrders.get? orderId).map (upsertOrder row)
    else row
  houseFees := some ledger.houseFeeTicks

/-- `LedgerConsumer` and its database. -/
structure Consumer where
  ledger : Ledger
  needsFullFlush : Bool
  database : Database

namespace Consumer

/-- How a flush ends. -/
inductive Outcome where
  | committed
  | rolledBack
  /-- Committed, but the consumer was told otherwise. -/
  | unknown
deriving DecidableEq, Repr

/-- `flush_to_db`. -/
def flushToDb (consumer : Consumer) (full : Bool) (outcome : Outcome) : Consumer :=
  let (taken, ledger) := consumer.ledger.takeDirty
  let dirty := if full then ledger.everything else taken
  let written := ledger.flush dirty full consumer.database
  match outcome with
  | .committed => { consumer with ledger := ledger, database := written }
  | .rolledBack => { consumer with ledger := ledger }
  | .unknown => { consumer with ledger := ledger, database := written }

/-- `replay_from_genesis`, on whatever the database holds. Before it is done, nothing runs. -/
def recover (database : Database) (replayed : List (StreamId × Outbound)) : Consumer :=
  let ledger := new.applyAll (replayed.map fun item => (item.2, some item.1))
  flushToDb ⟨ledger, false, database⟩ true .committed

def readBatch (consumer : Consumer) (items : List (StreamId × Outbound)) : Consumer :=
  { consumer with
    ledger := consumer.ledger.applyAll (items.map fun item => (item.2, some item.1)) }

inductive Event where
  /-- A batch is read and flushed. -/
  | batch (items : List (StreamId × Outbound)) (outcome : Outcome)
  /-- Anything else in the loop raises: a read, or the checkpoint after a flush. -/
  | failed

/-- What an event reads from the stream. -/
def Event.items : Event → List (StreamId × Outbound)
  | .batch items _ => items
  | .failed => []

/-- One round of `run`. -/
def step (consumer : Consumer) : Event → Consumer
  | .batch [] _ => consumer
  | .batch items outcome =>
      { (consumer.readBatch items).flushToDb consumer.needsFullFlush outcome with
        needsFullFlush := outcome ≠ .committed }
  | .failed => { consumer with needsFullFlush := true }

def run (consumer : Consumer) (events : List Event) : Consumer := events.foldl step consumer

end Consumer

end QuantArena.Ledger
