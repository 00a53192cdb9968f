import QuantArena.Checkpointing.Checkpoint
import QuantArena.Engine.Cpp.Worker
import QuantArena.Foundations.Run
import QuantArena.Gateway.ReadRecords
import QuantArena.Matcher.EngineAgreement
import QuantArena.Matcher.Runner

/-! The matcher as it is deployed: a process of its own around the C++ engine, which it feeds frame
by frame, and Redis with nothing but bytes on its streams, whose oldest entries the matcher trims.
Either process may go at any time. -/

set_option autoImplicit false

namespace QuantArena.Matcher

open Foundations Contracts Exchange Gateway Engine.Cpp

/-! ## `CppEngineProcess` -/

namespace CppEngineProcess

/-- `_round_trip`: one frame in, and frames out up to the empty one. -/
def roundTrip (worker : Worker) (payload : List UInt8) :
    Except Fault (Worker × List (List UInt8)) := do
  let header ← Bytes.packUnsigned 4 payload.length
  let worker ← Worker.turn { worker with stdin := worker.stdin ++ (header ++ payload) }
  let (frames, rest) ← Frames.readFrames worker.stdout.length worker.stdout
  .ok ({ worker with stdout := rest }, frames)

def unpackAll : List (List UInt8) → Except Fault (List WireRecord)
  | [] => .ok []
  | frame :: rest => do
      let record ← unpackAny frame
      let records ← unpackAll rest
      .ok (record :: records)

def apply (worker : Worker) (record : WireRecord) : Except Fault (Worker × List WireRecord) := do
  let payload ← record.pack
  let (worker, frames) ← roundTrip worker payload
  let records ← unpackAll frames
  .ok (worker, records)

def applyAll (worker : Worker) : List WireRecord → Except Fault (Worker × List WireRecord)
  | [] => .ok (worker, [])
  | record :: rest => do
      let (worker, outputs) ← apply worker record
      let (worker, later) ← applyAll worker rest
      .ok (worker, outputs ++ later)

def snapshot (worker : Worker) : Except Fault (Worker × List UInt8) := do
  let (worker, frames) ← roundTrip worker Worker.snapshotRequest
  match frames with
  | [frame] => .ok (worker, frame)
  | [] => .error (.raised "not enough values to unpack (expected 1, got 0)")
  | _ => .error (.raised "too many values to unpack (expected 1)")

def restore (worker : Worker) (snapshot : List UInt8) : Except Fault Worker := do
  let (worker, _) ← roundTrip worker snapshot
  .ok worker

end CppEngineProcess

/-! ## `CppMatcher` -/

/-- The balance is an argument of the worker, which reads it into 64 bits. -/
structure CppSettings extends Settings where
  cash : RecordType.i64.Fits initialCashTicks

structure CppRedis where
  inbound : Retained (List UInt8)
  outbound : Retained (List UInt8)
  /-- The matcher's own checkpoint, if it has one that it can use. -/
  checkpoint : Option Checkpoint

structure CppMatcher where
  /-- None when the worker has died. -/
  worker : Option Worker
  lastInboundId : StreamId
  lastOutboundId : StreamId

/-- `is_anchor`, of a record as it is read. -/
def isAnchorRecord (record : WireRecord) : Bool :=
  match record.type with
  | .orderAccepted => true
  | .orderRejected => true
  | .accountCreated => true
  | .cashCredited => true
  | .replayConfigured => true
  | .orderCancelled => record.body.getLast? = some (cancelReasonCode .userRequested)
  | _ => false

namespace CppMatcher

/-- `count_anchors_after`, cut off after `rounds` reads. -/
def countAnchorsAfter (settings : CppSettings) (store : Stream (List UInt8)) :
    Nat → StreamId → Nat → Except Fault (Nat × StreamId)
  | 0, _, _ => .error .diverged
  | rounds + 1, lastId, anchors => do
      let batch ← readRecords store lastId settings.batchSize
      if batch = [] then .ok (anchors, lastId)
      else
        let found := batch.foldl
          (fun found item => (found.1 + (isAnchorRecord item.2).toNat, item.1)) (anchors, lastId)
        countAnchorsAfter settings store rounds found.2 found.1

/-- The `for` loop of `recover`. -/
def replayBatch (alreadyAnswered : Nat) : List (StreamId × WireRecord) → Worker → StreamId → Nat →
    Except Fault (Worker × StreamId × Nat)
  | [], worker, lastId, replayed => .ok (worker, lastId, replayed)
  | item :: rest, worker, lastId, replayed =>
      if replayed ≥ alreadyAnswered then .ok (worker, lastId, replayed)
      else do
        let (worker, _) ← CppEngineProcess.apply worker item.2
        replayBatch alreadyAnswered rest worker item.1 (replayed + 1)

/-- The `while` loop of `recover`, cut off after `rounds` reads. -/
def replay (settings : CppSettings) (store : Stream (List UInt8)) (alreadyAnswered : Nat) :
    Nat → Worker → StreamId → Nat → Except Fault (Worker × StreamId)
  | 0, _, _, _ => .error .diverged
  | rounds + 1, worker, lastId, replayed =>
      if replayed < alreadyAnswered then do
        let batch ← readRecords store lastId settings.batchSize
        if batch = [] then .error (.raised
          "outbound anchors exceed retained inbound records; cannot recover the C++ engine safely")
        else do
          let (worker, lastId, replayed) ←
            replayBatch alreadyAnswered batch worker lastId replayed
          replay settings store alreadyAnswered rounds worker lastId replayed
      else .ok (worker, lastId)

/-- A new worker, with the checkpoint's state if there is one. -/
def resume (settings : CppSettings) : Option Checkpoint →
    Except Fault (Worker × StreamId × StreamId)
  | none => .ok (.new settings.initialCashTicks, .start, .start)
  | some saved => do
      let worker ← CppEngineProcess.restore (.new settings.initialCashTicks) saved.state
      .ok (worker, saved.inbound, saved.outbound)

/-- `resume_positions`: the checkpoint, once every stream has passed the guard. -/
def resumePositions (redis : CppRedis) : Except Fault (Option Checkpoint) := do
  Checkpointing.ensureResumable redis.inbound ((redis.checkpoint.map (·.inbound)).getD .start)
  Checkpointing.ensureResumable redis.outbound ((redis.checkpoint.map (·.outbound)).getD .start)
  .ok redis.checkpoint

/-- Each read of a stream yields something new, so its length bounds the reads. -/
def recover (settings : CppSettings) (redis : CppRedis) : Except Fault CppMatcher := do
  let saved ← resumePositions redis
  let (worker, inboundFrom, outboundFrom) ← resume settings saved
  let (alreadyAnswered, lastOutbound) ← countAnchorsAfter settings redis.outbound.left
    (redis.outbound.history.entries.length + 1) outboundFrom 0
  let (worker, lastId) ← replay settings redis.inbound.left alreadyAnswered
    (redis.inbound.history.entries.length + 1) worker inboundFrom 0
  .ok ⟨some worker, lastId, lastOutbound⟩

def packAll : List WireRecord → Except Fault (List (List UInt8))
  | [] => .ok []
  | record :: rest => do
      let payload ← record.pack
      let payloads ← packAll rest
      .ok (payload :: payloads)

/-- `step`: what Redis holds afterwards, and the matcher unless it raised. -/
def step (redis : CppRedis) (matcher : CppMatcher) (now count : Nat) (reply : Reply) :
    CppRedis × Option CppMatcher :=
  match matcher.worker, readRecords redis.inbound.left matcher.lastInboundId count with
  -- A worker that has died is never replaced here, for the new one would be empty.
  | none, _ => (redis, none)
  | _, .error _ => (redis, none)
  | some _, .ok [] => (redis, some matcher)
  | some worker, .ok (item :: rest) =>
      match CppEngineProcess.applyAll worker ((item :: rest).map (·.2)) with
      | .error _ => (redis, none)
      | .ok (worker, outputs) =>
          let answered := Stream.reached (item :: rest) matcher.lastInboundId
          if outputs = [] then (redis, some ⟨some worker, answered, matcher.lastOutboundId⟩)
          else
            match packAll outputs with
            | .error _ => (redis, none)
            | .ok payloads =>
                let appended := { redis with outbound := redis.outbound.appendAll now payloads }
                match reply with
                | .ok => (appended, some ⟨some worker, answered, appended.outbound.history.lastId⟩)
                | .failed => (redis, none)
                | .lost => (appended, none)

def writeCheckpoint (redis : CppRedis) (matcher : CppMatcher) (reply : Reply) :
    CppRedis × Option CppMatcher :=
  match matcher.worker with
  | none => (redis, none)
  | some worker =>
      match CppEngineProcess.snapshot worker with
      | .error _ => (redis, none)
      | .ok (worker, state) =>
          let saved := { redis with
            checkpoint := some ⟨matcher.lastInboundId, matcher.lastOutboundId, state⟩ }
          match reply with
          | .ok => (saved, some { matcher with worker := some worker })
          | .failed => (redis, none)
          | .lost => (saved, none)

/-- `trim` of one stream, when its other readers are at `others`: below the oldest position, if
every reader has one and none is at `0-0`. Redis removes no more than `count` entries. -/
def trim (stream : Retained (List UInt8)) (own : Option StreamId) (others : List StreamId)
    (count : Nat) : Retained (List UInt8) :=
  match own with
  | none => stream
  | some position =>
      let oldest := others.foldl min position
      if oldest = .start then stream else stream.trim oldest count

/-- `start`: a worker that has died in the meantime is replaced by an empty one. -/
def start (settings : CppSettings) (matcher : CppMatcher) : CppMatcher :=
  { matcher with worker := some (matcher.worker.getD (.new settings.initialCashTicks)) }

end CppMatcher

/-! ## The exchange around it -/

/-- How far `main` has come. -/
inductive CppProcess where
  | down
  | recovered (matcher : CppMatcher)
  | checkpointed (matcher : CppMatcher)
  | running (matcher : CppMatcher)
  /-- A cycle of `run` has raised, and only `recover` can go on. -/
  | failing

structure CppSystem where
  redis : CppRedis
  process : CppProcess

/-- What the gateway appends: a record with an answer, and a submission that it has checked. -/
abbrev GatewayRequest :=
  { record : Inbound // record ≠ .other ∧ ∀ order, record = .submitOrder order → Admissible order }

inductive CppAction where
  | gateway (now : Nat) (request : GatewayRequest)
  /-- `main` begins. The worker may die during the recovery. -/
  | boot (survives : Bool)
  | writeCheckpoint (reply : Reply)
  | start
  | step (now count : Nat) (reply : Reply)
  /-- One stream of `trim_streams`, with where its other readers' checkpoints are. -/
  | trimInbound (others : List StreamId) (count : Nat)
  | trimOutbound (others : List StreamId) (count : Nat)
  /-- The recovery inside `run`. -/
  | retry (survives : Bool)
  | killWorker
  | crash
  | loseCheckpoint

namespace CppProcess

/-- The matcher, between two steps. -/
def matcher? : CppProcess → Option CppMatcher
  | .recovered matcher => some matcher
  | .checkpointed matcher => some matcher
  | .running matcher => some matcher
  | _ => none

def killWorker : CppProcess → CppProcess
  | .recovered matcher => .recovered { matcher with worker := none }
  | .checkpointed matcher => .checkpointed { matcher with worker := none }
  | .running matcher => .running { matcher with worker := none }
  | process => process

end CppProcess

namespace CppSystem

def start : CppSystem := ⟨⟨.empty, .empty, none⟩, .down⟩

/-- `append` of one record. What does not fit its fields raises in the gateway. -/
def append (redis : CppRedis) (now : Nat) (request : GatewayRequest) : CppRedis :=
  match request.1.wire?.map WireRecord.pack with
  | some (.ok payload) => { redis with inbound := redis.inbound.append now payload }
  | _ => redis

def recover (settings : CppSettings) (redis : CppRedis) (survives : Bool) :
    Except Fault CppMatcher :=
  if survives then CppMatcher.recover settings redis
  else do
    let _ ← CppMatcher.resumePositions redis
    .error (.raised "0 bytes read on a total of 4 expected bytes")

def act (settings : CppSettings) (system : CppSystem) : CppAction → CppSystem
  | .gateway now request => { system with redis := append system.redis now request }
  | .boot survives =>
      match system.process with
      | .down =>
          match recover settings system.redis survives with
          | .ok matcher => { system with process := .recovered matcher }
          | .error _ => system
      | _ => system
  | .writeCheckpoint reply =>
      match system.process with
      | .recovered matcher =>
          match CppMatcher.writeCheckpoint system.redis matcher reply with
          | (redis, some matcher) => ⟨redis, .checkpointed matcher⟩
          | (redis, none) => ⟨redis, .down⟩
      | .running matcher =>
          match CppMatcher.writeCheckpoint system.redis matcher reply with
          | (redis, some matcher) => ⟨redis, .running matcher⟩
          | (redis, none) => ⟨redis, .failing⟩
      | _ => system
  | .start =>
      match system.process with
      | .checkpointed matcher => { system with process := .running (matcher.start settings) }
      | _ => system
  | .step now count reply =>
      match system.process with
      | .running matcher =>
          match CppMatcher.step system.redis matcher now count reply with
          | (redis, some matcher) => ⟨redis, .running matcher⟩
          | (redis, none) => ⟨redis, .failing⟩
      | _ => system
  | .trimInbound others count =>
      match system.process with
      | .running _ => { system with
          redis.inbound := CppMatcher.trim system.redis.inbound
            (system.redis.checkpoint.map (·.inbound)) others count }
      | _ => system
  | .trimOutbound others count =>
      match system.process with
      | .running _ => { system with
          redis.outbound := CppMatcher.trim system.redis.outbound
            (system.redis.checkpoint.map (·.outbound)) others count }
      | _ => system
  | .retry survives =>
      match system.process with
      | .failing =>
          match recover settings system.redis survives with
          | .ok matcher => { system with process := .running matcher }
          -- A refusal is not transient: the process exits.
          | .error .refused => { system with process := .down }
          | .error _ => system
      | _ => system
  | .killWorker => { system with process := system.process.killWorker }
  | .crash => { system with process := .down }
  | .loseCheckpoint => { system with redis := { system.redis with checkpoint := none } }

def run (settings : CppSettings) (system : CppSystem) (actions : List CppAction) : CppSystem :=
  actions.foldl (act settings) system

end CppSystem

end QuantArena.Matcher
