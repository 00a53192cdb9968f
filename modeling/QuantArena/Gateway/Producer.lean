import QuantArena.Gateway.Idempotency

/-! The stream producer: a queue of appends, a task that flushes it in batches, and
the halt flag that the producer raises and the watchdog lifts. What runs between two
awaits is one step; which task goes next, and what Redis does, is not the code's choice. -/

set_option autoImplicit false

namespace QuantArena.Gateway

open Foundations Contracts

inductive HaltReason where
  | redisUnreachable
  | producerStopped
deriving DecidableEq, Repr

structure HaltState where
  halted : Bool
  reason : Option HaltReason
deriving DecidableEq, Repr

namespace HaltState

def halt (_ : HaltState) (reason : HaltReason) : HaltState := ⟨true, some reason⟩

def clear (_ : HaltState) : HaltState := ⟨false, none⟩

end HaltState

inductive AppendError where
  /-- `ExchangeHalted`. -/
  | exchangeHalted (reason : HaltReason)
  /-- Redis answered the command with an error. -/
  | refused
  /-- Anything else the flush raised. -/
  | raised
  /-- The caller gave up. -/
  | cancelled
deriving DecidableEq, Repr

inductive Future where
  | pending
  | resolved (result : ClaimedAppend)
  | failed (error : AppendError)
deriving DecidableEq

/-- A queued append, and the future that its caller awaits. -/
structure Pending where
  stream : String
  record : Inbound
  future : Nat
  idempotencyKey : Option IdempotencyKey
deriving DecidableEq

/-- The task made by `start`: where it is in `_loop`. -/
inductive Loop where
  /-- Not given its first step yet. -/
  | created
  /-- In `queue.get`. -/
  | waiting
  | flushing (batch : List Pending)
  | ended
deriving DecidableEq

/-- What Redis answers to one command of a pipeline. -/
inductive Reply where
  | value (result : ClaimedAppend)
  | error
  /-- An answer that the code cannot take apart. -/
  | malformed
deriving DecidableEq

/-- How `pipe.execute` ends. -/
inductive Execution where
  | replies (replies : List Reply)
  /-- `UNREACHABLE`. -/
  | unreachable
  /-- Another `RedisError`. -/
  | refused
  /-- Any other exception. -/
  | raised
deriving DecidableEq

structure StreamProducer where
  batchMax : Nat
  halt : HaltState
  queue : List Pending
  /-- Every future there has been. -/
  futures : List Future
  /-- Every task there has been. -/
  loops : List Loop
  /-- `_task`. -/
  task : Option Nat
  /-- The tasks that the calls of `stop` under way are awaiting. -/
  stops : List Nat

/-- `set_result` or `set_exception`, unless the future is done. -/
def settle (futures : List Future) (future : Nat) (result : Future) : List Future :=
  if futures[future]? = some .pending then futures.set future result else futures

/-- `_fail`. -/
def failAll (futures : List Future) (batch : List Pending) (error : AppendError) : List Future :=
  batch.foldl (fun futures item => settle futures item.future (.failed error)) futures

/-- The end of `_flush`. A malformed answer raises, and the loop fails what is not done yet. -/
def distribute (futures : List Future) : List Pending → List Reply → List Future
  | [], _ => futures
  | item :: rest, [] => failAll futures (item :: rest) .refused
  | item :: rest, reply :: replies =>
      if futures[item.future]? ≠ some .pending then distribute futures rest replies
      else
        match reply with
        | .value result => distribute (settle futures item.future (.resolved result)) rest replies
        | .error => distribute (settle futures item.future (.failed .refused)) rest replies
        | .malformed => failAll futures (item :: rest) .raised

namespace StreamProducer

def new (batchMax : Nat) : StreamProducer := ⟨batchMax, ⟨false, none⟩, [], [], [], none, []⟩

def start (producer : StreamProducer) : StreamProducer :=
  match producer.task with
  | some _ => producer
  | none =>
      { producer with
        loops := producer.loops ++ [.created]
        task := some producer.loops.length }

/-- `_drain_and_fail`. -/
def drainAndFail (producer : StreamProducer) (error : AppendError) : StreamProducer :=
  { producer with futures := failAll producer.futures producer.queue error, queue := [] }

/-- `stop`, up to where it awaits the task it has cancelled. -/
def stop (producer : StreamProducer) : StreamProducer :=
  match producer.task with
  | some task => { producer with stops := producer.stops ++ [task] }
  | none => producer.drainAndFail (.exchangeHalted .producerStopped)

/-- The rest of a `stop` whose task has ended. -/
def stopped (producer : StreamProducer) (call : Nat) : StreamProducer :=
  match producer.stops[call]? with
  | none => producer
  | some task =>
      if producer.loops[task]? = some .ended then
        { producer with task := none, stops := producer.stops.eraseIdx call }.drainAndFail
          (.exchangeHalted .producerStopped)
      else producer

def running (producer : StreamProducer) : Bool :=
  producer.task.any fun task => producer.loops[task]?.any (· ≠ .ended)

/-- `_enqueue`. -/
def enqueue (producer : StreamProducer) (stream : String) (record : Inbound)
    (idempotencyKey : Option IdempotencyKey) : StreamProducer :=
  { producer with
    futures := producer.futures ++ [.pending]
    queue := producer.queue ++ [⟨stream, record, producer.futures.length, idempotencyKey⟩] }

/-- `append`, and what it raises, if it raises before it awaits a future. -/
def append (producer : StreamProducer) (stream : String) (record : Inbound) :
    StreamProducer × Option AppendError :=
  if producer.halt.halted then
    (producer, some (.exchangeHalted (producer.halt.reason.getD .redisUnreachable)))
  else if !producer.running then
    ({ producer with halt := producer.halt.halt .producerStopped },
      some (.exchangeHalted .producerStopped))
  else (producer.enqueue stream record none, none)

def claimAndAppend (producer : StreamProducer) (stream : String) (record : Inbound)
    (idempotencyKey : IdempotencyKey) : StreamProducer :=
  producer.enqueue stream record (some idempotencyKey)

/-! ## The flush loop -/

def setLoop (producer : StreamProducer) (task : Nat) (loop : Loop) : StreamProducer :=
  { producer with loops := producer.loops.set task loop }

/-- From `queue.get` to the pipeline, or from `created` to `queue.get`. -/
def take (producer : StreamProducer) (task : Nat) : StreamProducer :=
  match producer.loops[task]?, producer.queue with
  | some .created, _ => producer.setLoop task .waiting
  | some .waiting, item :: rest =>
      let count := max 1 producer.batchMax
      { producer with queue := (item :: rest).drop count }.setLoop task
        (.flushing ((item :: rest).take count))
  | _, _ => producer

/-- `_flush`, from the reply of the pipeline back to `queue.get`. -/
def flushed (producer : StreamProducer) (task : Nat) (execution : Execution) : StreamProducer :=
  match producer.loops[task]? with
  | some (.flushing batch) =>
      let after :=
        match execution with
        | .replies replies =>
            { producer with futures := distribute producer.futures batch replies }
        | .unreachable =>
            { producer with
              halt := producer.halt.halt .redisUnreachable
              futures := failAll producer.futures batch (.exchangeHalted .redisUnreachable) }
        | .refused => { producer with futures := failAll producer.futures batch .refused }
        | .raised => { producer with futures := failAll producer.futures batch .raised }
      after.setLoop task .waiting
  | _ => producer

/-- `CancelledError` reaches the task. One that never ran has no `finally` to run. -/
def cancelled (producer : StreamProducer) (task : Nat) : StreamProducer :=
  let finish := fun (producer : StreamProducer) =>
    { producer with halt := producer.halt.halt .producerStopped }.drainAndFail
      (.exchangeHalted .producerStopped)
  match producer.loops[task]? with
  | some .created => producer.setLoop task .ended
  | some .waiting => finish (producer.setLoop task .ended)
  | some (.flushing batch) =>
      let failed := failAll producer.futures batch (.exchangeHalted .producerStopped)
      finish ({ producer with futures := failed }.setLoop task .ended)
  | _ => producer

/-- `watch_health`, one poll. -/
def poll (producer : StreamProducer) (succeeded : Bool) : StreamProducer :=
  if !succeeded then { producer with halt := producer.halt.halt .redisUnreachable }
  else if producer.halt.halted then { producer with halt := producer.halt.clear }
  else producer

inductive Event where
  | start
  | stop
  | stopped (call : Nat)
  | append (stream : String) (record : Inbound)
  | claimAndAppend (stream : String) (record : Inbound) (idempotencyKey : IdempotencyKey)
  /-- A caller stops awaiting its future. -/
  | giveUp (future : Nat)
  | take (task : Nat)
  | flushed (task : Nat) (execution : Execution)
  | cancelled (task : Nat)
  | poll (succeeded : Bool)
deriving DecidableEq

def step (producer : StreamProducer) : Event → StreamProducer
  | .start => producer.start
  | .stop => producer.stop
  | .stopped call => producer.stopped call
  | .append stream record => (producer.append stream record).1
  | .claimAndAppend stream record idempotencyKey =>
      producer.claimAndAppend stream record idempotencyKey
  | .giveUp future =>
      { producer with futures := settle producer.futures future (.failed .cancelled) }
  | .take task => producer.take task
  | .flushed task execution => producer.flushed task execution
  | .cancelled task => producer.cancelled task
  | .poll succeeded => producer.poll succeeded

def run (batchMax : Nat) (events : List Event) : StreamProducer :=
  events.foldl step (new batchMax)

end StreamProducer

end QuantArena.Gateway
