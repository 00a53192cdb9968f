import QuantArena.Gateway.Orders

/-! Submissions and cancels that share an idempotency key, with everything that can
happen between two of their awaits. Redis runs a script or a command as one step;
its reply may be lost, and a client that lost one may have sent the command again. -/

set_option autoImplicit false

namespace QuantArena.Gateway

open Foundations Contracts

/-- The user and the client order id that a key's text is made of. -/
abbrev IdempotencyKey := Int × Int

/-- A stored outcome, as `parse` reads it back. -/
inductive IdempotencyOutcome where
  | inProgress
  | accepted (seq : StreamId)
  | rejected (reason : RejectReason)
deriving DecidableEq

/-- Where the script appended, or the outcome that was already there. -/
inductive ClaimedAppend where
  | appended (streamId : StreamId)
  | duplicate (existing : IdempotencyOutcome)
deriving DecidableEq

/-- The key a record is claimed under. -/
def keyOf? : Inbound → Option IdempotencyKey
  | .submitOrder order => some (order.userId, order.clientOrderId)
  | .cancelOrder cancel => some (cancel.userId, cancel.clientOrderId)
  | _ => none

structure Redis where
  keys : Dict IdempotencyKey IdempotencyOutcome
  inbound : Stream Inbound

namespace Redis

/-- The ids of the records appended for a key. -/
def recordsFor (redis : Redis) (key : IdempotencyKey) : List StreamId :=
  (redis.inbound.entries.filter fun entry => keyOf? entry.2 = some key).map (·.1)

/-- `CLAIM_AND_APPEND_SCRIPT`. -/
def claimAndAppend (redis : Redis) (key : IdempotencyKey) (record : Inbound) (now : Nat) :
    Redis × ClaimedAppend :=
  match redis.keys.get? key with
  | some existing => (redis, .duplicate existing)
  | none =>
      let id := redis.inbound.lastId.next now
      (⟨redis.keys.set key (.accepted id), redis.inbound.append now record⟩, .appended id)

/-- The `SET NX` of `record_rejected`, and whether it was this call that set the key. -/
def setRejected (redis : Redis) (key : IdempotencyKey) (reason : RejectReason) : Redis × Bool :=
  match redis.keys.get? key with
  | some _ => (redis, false)
  | none => ({ redis with keys := redis.keys.set key (.rejected reason) }, true)

end Redis

/-- What the client is told. -/
inductive Answer where
  | accepted (seq : StreamId)
  | inProgress
  /-- 409. -/
  | rejected (reason : RejectReason)
  /-- 503. -/
  | halted
  /-- 429. -/
  | rateLimited
  /-- Another error, or no answer at all to a request that was cancelled. -/
  | failed
deriving DecidableEq

/-- `_answer`. -/
def Answer.of : IdempotencyOutcome → Answer
  | .inProgress => .inProgress
  | .accepted seq => .accepted seq
  | .rejected reason => .rejected reason

inductive Body where
  | submit (body : SubmitOrderRequest)
  | cancel (clientOrderId targetClientOrderId : Int)

def Body.clientOrderId : Body → Int
  | .submit body => body.clientOrderId
  | .cancel clientOrderId _ => clientOrderId

/-- Which await a call is at. -/
inductive Stage where
  /-- `lookup`, not read yet. -/
  | lookup
  /-- `lookup`, read. -/
  | lookedUp (stored : Option IdempotencyOutcome)
  /-- The `SET NX` of `record_rejected`. -/
  | recordRejected (reason : RejectReason)
  /-- The `lookup` of `record_rejected`, after `SET NX` found an outcome. -/
  | readBack (reason : RejectReason)
  | append
  | answered (answer : Answer)
deriving DecidableEq

structure Call where
  userId : Int
  body : Body
  stage : Stage
  /-- What is in the producer's queue for this call. It stays there when the call is cancelled. -/
  queued : Option Inbound
  /-- What Redis has answered so far to running the script for this call. -/
  results : List ClaimedAppend

def Call.key (call : Call) : IdempotencyKey := (call.userId, call.body.clientOrderId)

/-- The handler's synchronous part, from the reply to `lookup` to the next await. -/
def Call.proceed (call : Call) (settings : Settings) (risk : RiskState) (now : Int) : Call :=
  match call.stage with
  | .lookedUp (some outcome) => { call with stage := .answered (.of outcome) }
  | .lookedUp none =>
      match call.body with
      | .submit body =>
          match body.decide settings risk call.userId now with
          | .inProgress => { call with stage := .answered .inProgress }
          | .reject reason => { call with stage := .recordRejected reason }
          | .append order _ =>
              { call with stage := .append, queued := some (.submitOrder order) }
      | .cancel clientOrderId targetClientOrderId =>
          { call with
            stage := .append
            queued := some (.cancelOrder ⟨now, clientOrderId, call.userId, targetClientOrderId⟩) }
  | _ => call

/-- The handler's last part, from the reply of the script. -/
def Call.finish (call : Call) (claimed : ClaimedAppend) : Call :=
  match call.stage, claimed with
  | .append, .appended streamId => { call with stage := .answered (.accepted streamId) }
  | .append, .duplicate existing => { call with stage := .answered (.of existing) }
  | _, _ => call

/-- An exception out of an await, or an answer that needs no outcome. -/
def Call.abort (call : Call) (answer : Answer) : Call :=
  match call.stage, answer with
  | .answered _, _ => call
  | _, .halted => { call with stage := .answered .halted }
  | _, .rateLimited => { call with stage := .answered .rateLimited }
  | _, _ => { call with stage := .answered .failed }

/-- Redis and every call there has been. -/
structure Requests where
  redis : Redis
  calls : List Call

inductive Step where
  | arrive (userId : Int) (body : Body)
  /-- Redis reads the key for a `lookup`. -/
  | read (call : Nat)
  /-- The reply arrives. The risk state is whatever the gateway holds by then. -/
  | proceed (call : Nat) (risk : RiskState) (now : Int)
  /-- Redis runs `SET NX`. With its reply lost, the client sends it again or gives up. -/
  | recordRejected (call : Nat) (replied : Bool)
  | readBack (call : Nat)
  /-- Redis runs the script, in whichever flush, and again if a reply was lost. -/
  | runScript (call : Nat) (now : Nat)
  /-- One of the script's replies reaches the call. -/
  | finish (call : Nat) (reply : Nat)
  | abort (call : Nat) (answer : Answer)
  /-- A record that goes through no key: a registration, a credit, a configuration. -/
  | append (now : Nat) (record : Inbound)
  | expire (key : IdempotencyKey)

namespace Requests

def fresh : Requests := ⟨⟨.empty, .empty⟩, []⟩

/-- A step of the call at `index`, which may use Redis. -/
def update (state : Requests) (index : Nat) (run : Redis → Call → Redis × Call) : Requests :=
  match state.calls[index]? with
  | none => state
  | some call => ⟨(run state.redis call).1, state.calls.set index (run state.redis call).2⟩

def read (redis : Redis) (call : Call) : Redis × Call :=
  match call.stage with
  | .lookup => (redis, { call with stage := .lookedUp (redis.keys.get? call.key) })
  | _ => (redis, call)

/-- `record_rejected`, to its reply. -/
def recordRejected (replied : Bool) (redis : Redis) (call : Call) : Redis × Call :=
  match call.stage with
  | .recordRejected reason =>
      let (after, set) := redis.setRejected call.key reason
      if !replied then (after, call)
      else if set then (after, { call with stage := .answered (.rejected reason) })
      else (after, { call with stage := .readBack reason })
  | _ => (redis, call)

/-- The rest of `record_rejected`. -/
def readBack (redis : Redis) (call : Call) : Redis × Call :=
  match call.stage with
  | .readBack reason =>
      (redis, { call with
        stage := .answered (.of ((redis.keys.get? call.key).getD (.rejected reason))) })
  | _ => (redis, call)

def runScript (now : Nat) (redis : Redis) (call : Call) : Redis × Call :=
  match call.queued with
  | none => (redis, call)
  | some record =>
      let (after, claimed) := redis.claimAndAppend call.key record now
      (after, { call with results := call.results ++ [claimed] })

def finish (reply : Nat) (redis : Redis) (call : Call) : Redis × Call :=
  match call.results[reply]? with
  | none => (redis, call)
  | some claimed => (redis, call.finish claimed)

/-- A step that is not enabled leaves everything as it is. -/
def step (settings : Settings) (state : Requests) : Step → Requests
  | .arrive userId body =>
      { state with calls := state.calls ++ [⟨userId, body, .lookup, none, []⟩] }
  | .read call => state.update call read
  | .proceed call risk now =>
      state.update call fun redis call => (redis, call.proceed settings risk now)
  | .recordRejected call replied => state.update call (recordRejected replied)
  | .readBack call => state.update call readBack
  | .runScript call now => state.update call (runScript now)
  | .finish call reply => state.update call (finish reply)
  | .abort call answer => state.update call fun redis call => (redis, call.abort answer)
  | .append now record =>
      match keyOf? record with
      | some _ => state
      | none => { state with redis.inbound := state.redis.inbound.append now record }
  | .expire key => { state with redis.keys := state.redis.keys.erase key }

def run (settings : Settings) (steps : List Step) : Requests :=
  steps.foldl (step settings) fresh

end Requests

end QuantArena.Gateway
