import QuantArena.Foundations.Dict
import QuantArena.Foundations.Fault
import QuantArena.Foundations.Retained

/-! Checkpoints, the resume guard and stream trimming, over what Redis keeps of the
streams and of each process's checkpoint. -/

set_option autoImplicit false

namespace QuantArena.Checkpointing

open Foundations

structure Checkpoint where
  /-- By stream name, the last id this state has applied. -/
  positions : Dict String StreamId
  state : List UInt8
  configHash : String
  writtenAtNs : Int
deriving DecidableEq

/-- Resuming would rebuild from an incomplete stream. -/
structure CheckpointRefused where
  process : String
  stream : String
  floor : StreamId
  afterId : StreamId
deriving DecidableEq

/-- `ensure_resumable`, of one stream. The floor is the first id that is left. -/
def ensureResumable {α : Type} (stream : Retained α) (afterId : StreamId) : Except Fault Unit :=
  if stream.removed ≠ 0 ∧ afterId < stream.floor then .error .refused else .ok ()

structure Redis (α : Type) where
  streams : Dict String (Retained α)
  checkpoints : Dict String Checkpoint

namespace Redis

variable {α : Type}

def empty : Redis α := ⟨.empty, .empty⟩

def stream (redis : Redis α) (name : String) : Retained α := redis.streams.getD name .empty

def save (redis : Redis α) (process : String) (checkpoint : Checkpoint) : Redis α :=
  { redis with checkpoints := redis.checkpoints.set process checkpoint }

/-- The process's checkpoint, or none if it has none it can use. -/
def load (redis : Redis α) (process configHash : String) : Option Checkpoint :=
  match redis.checkpoints.get? process with
  | none => none
  | some checkpoint => if checkpoint.configHash ≠ configHash then none else some checkpoint

/-- Was anything ever removed, the first retained id, and the last one generated. Entries are
removed by trimming alone, which `max-deleted-entry-id` does not tell. -/
def streamBounds (redis : Redis α) (name : String) : Bool × Option StreamId × StreamId :=
  match redis.streams.get? name with
  | none => (false, none, .start)
  | some stream =>
      (stream.history.entries.length > stream.entries.length, stream.entries.head?.map (·.1),
        stream.history.lastId)

def ensureResumable (redis : Redis α) (process stream : String) (afterId : StreamId) :
    Except CheckpointRefused Unit :=
  let (removed, firstId, lastId) := redis.streamBounds stream
  if ¬ removed then .ok ()
  else
    let floor := firstId.getD lastId
    if afterId < floor then .error ⟨process, stream, floor, afterId⟩ else .ok ()

/-- Where a process resumes a stream. -/
def resumePoint (checkpoint : Option Checkpoint) (stream : String) : StreamId :=
  match checkpoint with
  | none => .start
  | some checkpoint => checkpoint.positions.getD stream .start

/-- The loop of `resume_positions`. -/
def ensureAllResumable (redis : Redis α) (process : String) (checkpoint : Option Checkpoint) :
    List String → Except CheckpointRefused Unit
  | [] => .ok ()
  | stream :: rest => do
      redis.ensureResumable process stream (resumePoint checkpoint stream)
      redis.ensureAllResumable process checkpoint rest

def resumePositions (redis : Redis α) (process : String) (streams : List String)
    (configHash : String) : Except CheckpointRefused (Option Checkpoint) := do
  let checkpoint := redis.load process configHash
  redis.ensureAllResumable process checkpoint streams
  .ok checkpoint

/-- The oldest position among the readers, unless one has no usable checkpoint. -/
def oldestPosition (redis : Redis α) (stream configHash : String) :
    List String → Option StreamId → Option (Option StreamId)
  | [], oldest => some oldest
  | reader :: rest, oldest =>
      match redis.checkpoints.get? reader with
      | none => none
      | some checkpoint =>
          if checkpoint.configHash ≠ configHash then none
          else
            match checkpoint.positions.get? stream with
            | none => none
            | some position =>
                redis.oldestPosition stream configHash rest
                  (some (oldest.elim position (min · position)))

/-- The id that a stream is trimmed below, if it is. -/
def trimPoint (redis : Redis α) (stream : String) (readers : List String) (configHash : String) :
    Option StreamId :=
  match redis.oldestPosition stream configHash readers none with
  | some (some oldest) => if oldest = .start then none else some oldest
  | _ => none

/-- `trim`, of which Redis removes no more than `count` entries. -/
def trim (redis : Redis α) (stream : String) (readers : List String) (configHash : String)
    (count : Nat) : Redis α :=
  match redis.trimPoint stream readers configHash with
  | none => redis
  | some minId =>
      { redis with streams := redis.streams.set stream ((redis.stream stream).trim minId count) }

end Redis

/-- Whatever the processes do between them, each under its own configuration hash. A restart
changes nothing here. -/
inductive Action (α : Type) where
  | append (stream : String) (now : Nat) (record : α)
  | save (process : String) (checkpoint : Checkpoint)
  | trim (stream : String) (readers : List String) (configHash : String) (count : Nat)
  | resume (process : String) (streams : List String) (configHash : String)

namespace Redis

variable {α : Type}

def step (redis : Redis α) : Action α → Redis α
  | .append stream now record =>
      { redis with streams := redis.streams.set stream ((redis.stream stream).append now record) }
  | .save process checkpoint => redis.save process checkpoint
  | .trim stream readers configHash count => redis.trim stream readers configHash count
  | .resume _ _ _ => redis

def run (redis : Redis α) (actions : List (Action α)) : Redis α := actions.foldl step redis

end Redis

end QuantArena.Checkpointing
