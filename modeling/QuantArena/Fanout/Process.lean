import QuantArena.Checkpointing.Checkpoint
import QuantArena.Fanout.Stamps
import QuantArena.Foundations.Projection

/-! The fan-out process over its restarts. It comes up from its checkpoint, reads the outbound
stream to the end before it serves anybody, follows the stream while it serves, and may go at any
time. Nothing is trimmed from the stream. -/

set_option autoImplicit false

namespace QuantArena.Fanout

open Foundations Contracts

/-- `apply`, `dump_state`, and `load_state` with the position put in. -/
def projection (barWidths : List BarWidth) : Projection MarketState Outbound (List Char) where
  fresh := .new barWidths
  apply market entry := market.apply entry.2 (some entry.1)
  dump := MarketState.dumpState
  load position text := (MarketState.loadState barWidths text).map fun market =>
    { market with lastSeq := position }

/-- How a write to the store ends. -/
inductive Outcome where
  | done
  | lost
  /-- It raises, and may have been carried out. -/
  | unknown (carried : Bool)
deriving DecidableEq

structure Deployment where
  outbound : Stream Outbound
  checkpoint : Option (StreamId × List Char)
  process : Option Service

namespace Deployment

def start : Deployment := ⟨.empty, none, none⟩

/-- `write_checkpoint`, and whether it came back. -/
def writeCheckpoint (deployment : Deployment) (market : MarketState) (outcome : Outcome) :
    Deployment × Bool :=
  let saved := { deployment with checkpoint := some (market.lastSeq, market.dumpState) }
  match outcome with
  | .done => (saved, true)
  | .lost | .unknown false => (deployment, false)
  | .unknown true => (saved, false)

/-- `recover`. The guard comes first, and has all of the stream to look at. -/
def recover (settings : Settings) (batchSize : Nat) (deployment : Deployment) :
    Option (MarketState × StreamId) :=
  let place := (deployment.checkpoint.map Prod.fst).getD .start
  match Checkpointing.ensureResumable (.whole deployment.outbound) place with
  | .error _ => none
  | .ok () => (projection settings.barBucketSeconds).recover deployment.outbound batchSize
      deployment.checkpoint

/-- `lifespan`: recovers, saves where it is, and only then serves. -/
def boot (settings : Settings) (batchSize : Nat) (deployment : Deployment) (outcome : Outcome) :
    Deployment :=
  match deployment.recover settings batchSize with
  | none => deployment
  | some (market, _) =>
      match deployment.writeCheckpoint market outcome with
      | (next, true) => { next with process := some (.start market []) }
      | (next, false) => next

inductive Action where
  | append (now : Nat) (records : List Outbound)
  | boot (outcome : Outcome)
  /-- Anything the event loop does for the connections, or with the next record. -/
  | serve (action : Fanout.Action)
  /-- The checkpoint of `run` is due. -/
  | checkpoint (outcome : Outcome)
  | crash
  /-- The checkpoint is gone, or was written under another configuration. -/
  | loseCheckpoint

/-- The records that are appended while it is up are before it. -/
def append (deployment : Deployment) (now : Nat) (records : List Outbound) : Deployment :=
  let outbound := deployment.outbound.appendAll now records
  { deployment with
    outbound := outbound
    process := deployment.process.map fun service =>
      { service with
        ahead := service.ahead ++ outbound.entries.drop deployment.outbound.entries.length } }

def act (settings : Settings) (batchSize : Nat) (deployment : Deployment) : Action → Deployment
  | .append now records => deployment.append now records
  | .boot outcome =>
      match deployment.process with
      | none => deployment.boot settings batchSize outcome
      | some _ => deployment
  | .serve action =>
      { deployment with process := deployment.process.map (Service.step settings · action) }
  | .checkpoint outcome =>
      match deployment.process with
      | none => deployment
      | some service => (deployment.writeCheckpoint service.market outcome).1
  | .crash => { deployment with process := none }
  | .loseCheckpoint => { deployment with checkpoint := none }

def run (settings : Settings) (batchSize : Nat) (deployment : Deployment) (actions : List Action) :
    Deployment :=
  actions.foldl (act settings batchSize) deployment

end Deployment

end QuantArena.Fanout
