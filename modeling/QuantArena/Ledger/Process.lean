import QuantArena.Foundations.Projection
import QuantArena.Ledger.Checkpoint
import QuantArena.Ledger.ReadModel

/-! The ledger as a process: it comes up from its checkpoint, follows the outbound stream, keeps the
tables, and may go at any time. -/

set_option autoImplicit false

namespace QuantArena.Ledger

open Foundations Contracts

/-- What survives the process. -/
structure Store where
  outbound : Stream Outbound
  /-- The position it was saved at, and `dump_state`. -/
  checkpoint : Option (StreamId × List Char)
  database : Database

/-- `run`, between two rounds. -/
structure Running where
  ledger : Ledger
  lastId : StreamId
  needsFullFlush : Bool

/-- How far `main` has come. -/
inductive Process where
  | down
  | recovered (ledger : Ledger)
  | running (running : Running)

structure System extends Store where
  process : Process

structure Settings where
  batchSize : Nat
  reads : 0 < batchSize

/-- `apply`, `dump_state`, and `load_state` with the position put in. -/
def projection : Projection Ledger Outbound (List Char) where
  fresh := new
  apply ledger item := ledger.apply item.2 (some item.1)
  dump := dumpState
  load position text := (loadState text).map fun ledger => { ledger with lastSeq := position }

namespace Store

/-- `recover`, with the flush at its end. -/
def recover (settings : Settings) (store : Store) (outcome : Consumer.Outcome) :
    Store × Option Ledger :=
  match projection.recover store.outbound settings.batchSize store.checkpoint with
  | none => (store, none)
  | some (ledger, _) =>
      let flushed := Consumer.flushToDb ⟨ledger, false, store.database⟩ true outcome
      match outcome with
      | .committed => ({ store with database := flushed.database }, some flushed.ledger)
      | _ => ({ store with database := flushed.database }, none)

/-- `write_checkpoint`, and whether it came back. -/
def writeCheckpoint (store : Store) (ledger : Ledger) (outcome : Consumer.Outcome) : Store × Bool :=
  let saved := { store with checkpoint := some (ledger.lastSeq, ledger.dumpState) }
  match outcome with
  | .committed => (saved, true)
  | .rolledBack => (store, false)
  | .unknown => (saved, false)

/-- One round of `run`. The checkpoint is written when it is due, after a flush that came back. -/
def round (store : Store) (running : Running) (count : Nat) (outcome : Consumer.Outcome)
    (due : Option Consumer.Outcome) : Store × Running :=
  let batch := store.outbound.read running.lastId count
  if batch.isEmpty then (store, running)
  else
    let applied := batch.foldl projection.apply running.ledger
    let lastId := Stream.reached batch running.lastId
    let flushed := Consumer.flushToDb ⟨applied, running.needsFullFlush, store.database⟩
      running.needsFullFlush outcome
    let store := { store with database := flushed.database }
    match outcome, due with
    | .committed, none => (store, ⟨flushed.ledger, lastId, false⟩)
    | .committed, some saving =>
        let (store, saved) := store.writeCheckpoint flushed.ledger saving
        (store, ⟨flushed.ledger, lastId, !saved⟩)
    | _, _ => (store, ⟨flushed.ledger, lastId, true⟩)

end Store

namespace System

inductive Action where
  | append (now : Nat) (records : List Outbound)
  /-- `main` up to the end of `recover`. -/
  | boot (outcome : Consumer.Outcome)
  /-- The checkpoint that `main` writes before it starts the loop. -/
  | begin (outcome : Consumer.Outcome)
  | round (count : Nat) (outcome : Consumer.Outcome) (due : Option Consumer.Outcome)
  /-- A read raises. -/
  | failedRead
  | crash
  /-- The checkpoint is gone, or was written under another configuration. -/
  | loseCheckpoint

def start (database : Database) : System := ⟨⟨.empty, none, database⟩, .down⟩

def act (settings : Settings) (system : System) : Action → System
  | .append now records =>
      { system with outbound := system.outbound.appendAll now records }
  | .boot outcome =>
      match system.process with
      | .down =>
          match system.toStore.recover settings outcome with
          | (store, some ledger) => ⟨store, .recovered ledger⟩
          | (store, none) => ⟨store, .down⟩
      | _ => system
  | .begin outcome =>
      match system.process with
      | .recovered ledger =>
          match system.toStore.writeCheckpoint ledger outcome with
          | (store, true) => ⟨store, .running ⟨ledger, ledger.lastSeq, false⟩⟩
          | (store, false) => ⟨store, .down⟩
      | _ => system
  | .round count outcome due =>
      match system.process with
      | .running running =>
          let (store, next) := system.toStore.round running count outcome due
          ⟨store, .running next⟩
      | _ => system
  | .failedRead =>
      match system.process with
      | .running running => { system with process := .running { running with needsFullFlush := true } }
      | _ => system
  | .crash => { system with process := .down }
  | .loseCheckpoint => { system with checkpoint := none }

def run (settings : Settings) (system : System) (actions : List Action) : System :=
  actions.foldl (act settings) system

end System

end QuantArena.Ledger
