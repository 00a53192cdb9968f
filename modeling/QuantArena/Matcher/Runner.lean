import QuantArena.Foundations.Stream
import QuantArena.Matcher.Adapter

/-! The matcher process around the naive matcher: inbound stream in, outbound stream
out, with a checkpoint in between. What Redis does with a command, and when the
process stops, is not the process's choice. -/

set_option autoImplicit false

namespace QuantArena.Matcher

open Foundations Contracts

/-- `is_anchor`: exactly one of these is emitted per inbound record. -/
def isAnchor : Outbound → Bool
  | .orderAccepted _ => true
  | .orderRejected _ => true
  | .accountCreated _ => true
  | .cashCredited _ => true
  | .replayConfigured _ => true
  | .orderCancelled cancelled => cancelled.reason = .userRequested
  | .fill _ => false
  | .bookChanged _ => false

structure Settings where
  initialCashTicks : Int
  batchSize : Nat
  reads : 0 < batchSize

/-- The engine snapshot and the two stream positions it goes with. -/
structure Checkpoint where
  inbound : StreamId
  outbound : StreamId
  state : List UInt8

structure Redis where
  inbound : Stream Inbound
  outbound : Stream Outbound
  checkpoint : Option Checkpoint

/-- `Matcher`, between two steps. -/
structure Runner where
  matcher : NaiveMatcher
  lastInboundId : StreamId
  lastOutboundId : StreamId

/-! ## Recovery -/

/-- `count_anchors_after`, cut off after `rounds` reads. -/
def countAnchorsAfter (settings : Settings) (stream : Stream Outbound) :
    Nat → StreamId → Nat → Except Fault (Nat × StreamId)
  | 0, _, _ => .error .diverged
  | rounds + 1, lastId, anchors =>
      match stream.read lastId settings.batchSize with
      | [] => .ok (anchors, lastId)
      | item :: rest =>
          let (anchors, lastId) := (item :: rest).foldl
            (fun found item => (found.1 + (isAnchor item.2).toNat, item.1)) (anchors, lastId)
          countAnchorsAfter settings stream rounds lastId anchors

/-- The `for` loop of `recover`, which applies records and drops what they produce. -/
def replayBatch (alreadyAnswered : Nat) : List (StreamId × Inbound) → NaiveMatcher → StreamId →
    Nat → Except Fault (NaiveMatcher × StreamId × Nat)
  | [], matcher, lastId, replayed => .ok (matcher, lastId, replayed)
  | item :: rest, matcher, lastId, replayed =>
      if replayed ≥ alreadyAnswered then .ok (matcher, lastId, replayed)
      else do
        let (matcher, _) ← matcher.apply item.2
        replayBatch alreadyAnswered rest matcher item.1 (replayed + 1)

/-- The `while` loop of `recover`, cut off after `rounds` reads. -/
def replay (settings : Settings) (stream : Stream Inbound) (alreadyAnswered : Nat) :
    Nat → NaiveMatcher → StreamId → Nat → Except Fault (NaiveMatcher × StreamId)
  | 0, _, _, _ => .error .diverged
  | rounds + 1, matcher, lastId, replayed =>
      if replayed < alreadyAnswered then
        match stream.read lastId settings.batchSize with
        | [] => .error (.raised
            "outbound anchors exceed retained inbound records; cannot recover the matcher safely")
        | item :: rest => do
            let (matcher, lastId, replayed) ←
              replayBatch alreadyAnswered (item :: rest) matcher lastId replayed
            replay settings stream alreadyAnswered rounds matcher lastId replayed
      else .ok (matcher, lastId)

/-- Where `recover` starts from: the checkpoint, or genesis. -/
def resume (settings : Settings) : Option Checkpoint →
    Except Fault (NaiveMatcher × StreamId × StreamId)
  | none => .ok (.new 1 settings.initialCashTicks, .start, .start)
  | some saved => do
      let matcher ← NaiveMatcher.restore saved.state settings.initialCashTicks
      .ok (matcher, saved.inbound, saved.outbound)

/-- Each read of a stream yields something new, so its length bounds the reads. -/
def recover (settings : Settings) (redis : Redis) : Except Fault Runner := do
  let (matcher, inboundFrom, outboundFrom) ← resume settings redis.checkpoint
  let (alreadyAnswered, lastOutbound) ← countAnchorsAfter settings redis.outbound
    (redis.outbound.entries.length + 1) outboundFrom 0
  let (matcher, lastId) ← replay settings redis.inbound alreadyAnswered
    (redis.inbound.entries.length + 1) matcher inboundFrom 0
  .ok ⟨matcher, lastId, lastOutbound⟩

/-! ## The live loop -/

/-- What became of a command: done, never done, or done with its reply lost. -/
inductive Reply where
  | ok
  | failed
  | lost
deriving DecidableEq, Repr

/-- `step`. With no runner left, only `recover` can go on: `run` calls nothing else
after an exception, and nothing else starts a new process. -/
def step (redis : Redis) (runner : Runner) (now count : Nat) (reply : Reply) :
    Redis × Option Runner :=
  match redis.inbound.read runner.lastInboundId count with
  | [] => (redis, some runner)
  | item :: rest =>
      match runner.matcher.applyAll ((item :: rest).map (·.2)) with
      | .error _ => (redis, none)
      | .ok (matcher, outputs) =>
          let answered := Stream.reached (item :: rest) runner.lastInboundId
          -- `append_atomic` of nothing does not reach Redis.
          if outputs = [] then (redis, some ⟨matcher, answered, runner.lastOutboundId⟩)
          else
            let appended := { redis with outbound := redis.outbound.appendAll now outputs }
            match reply with
            | .ok => (appended, some ⟨matcher, answered, appended.outbound.lastId⟩)
            | .failed => (redis, none)
            | .lost => (appended, none)

def writeCheckpoint (redis : Redis) (runner : Runner) (reply : Reply) : Redis × Option Runner :=
  match runner.matcher.snapshot with
  | .error _ => (redis, none)
  | .ok state =>
      let saved := { redis with
        checkpoint := some ⟨runner.lastInboundId, runner.lastOutboundId, state⟩ }
      match reply with
      | .ok => (saved, some runner)
      | .failed => (redis, none)
      | .lost => (saved, none)

/-! ## The exchange around it -/

/-- What the gateway writes: never a record the matcher has no answer for. -/
abbrev GatewayRecord := { record : Inbound // record ≠ .other }

inductive Action where
  | gateway (now : Nat) (record : GatewayRecord)
  /-- A read returns up to `count` records, whatever has arrived and the batch size allow. -/
  | step (now count : Nat) (reply : Reply)
  | writeCheckpoint (reply : Reply)
  /-- The saved checkpoint turns out unusable, and `load` answers that there is none. -/
  | loseCheckpoint
  | crash
  | recover

structure System where
  redis : Redis
  /-- None while the process is down, or has failed and not recovered. -/
  runner : Option Runner

namespace System

def start : System := ⟨⟨.empty, .empty, none⟩, none⟩

def act (settings : Settings) (system : System) : Action → System
  | .gateway now record => { system with redis := { system.redis with
      inbound := system.redis.inbound.append now record } }
  | .step now count reply =>
      match system.runner with
      | none => system
      | some runner =>
          let (redis, runner) := Matcher.step system.redis runner now count reply
          ⟨redis, runner⟩
  | .writeCheckpoint reply =>
      match system.runner with
      | none => system
      | some runner =>
          let (redis, runner) := Matcher.writeCheckpoint system.redis runner reply
          ⟨redis, runner⟩
  | .loseCheckpoint => { system with redis := { system.redis with checkpoint := none } }
  | .crash => { system with runner := none }
  | .recover => { system with runner := (Matcher.recover settings system.redis).toOption }

def run (settings : Settings) (system : System) (actions : List Action) : System :=
  actions.foldl (act settings) system

end System

end QuantArena.Matcher
