import QuantArena.Contracts.Records
import QuantArena.Foundations.Dict
import QuantArena.Foundations.Stream

/-! Registrations, with the two durable stores they write: the `users` table and the
inbound stream. What the stores do, and where a request is cut off, is not the route's
choice. -/

set_option autoImplicit false

namespace QuantArena.Gateway

open Foundations Contracts

def accountCreationClientOrderId : Int := 0

/-- The answer to a registration. -/
inductive RegisterAnswer where
  | created (userId : Int)
  /-- 409. -/
  | taken
  /-- 503, once the row is withdrawn. -/
  | halted
  /-- Another error, or no answer at all: a cancelled request, a stopped process. -/
  | failed
deriving DecidableEq, Repr

/-- Which await of `register` a request is at. -/
inductive RegisterStage where
  /-- The lookup of the name. -/
  | select
  /-- The commit of the new row. -/
  | insert
  /-- `db.refresh`, with the row committed. -/
  | refresh
  | append
  /-- The commit that deletes the row again, after `ExchangeHalted`. -/
  | withdraw
  | ended (answer : RegisterAnswer)
deriving DecidableEq, Repr

/-- The producer's command for a request: how often Redis has run it, and whether it still may. -/
structure Command where
  executions : Nat
  live : Bool
deriving DecidableEq, Repr

structure Registration where
  username : String
  createdAtNs : Int
  stage : RegisterStage
  /-- The id that the row was committed with. -/
  userId : Option Int
  /-- The row was deleted again. -/
  withdrawn : Bool
  command : Command
deriving DecidableEq, Repr

/-- How the append ends, for the request. -/
inductive AppendOutcome where
  | returned
  /-- `ExchangeHalted`, whatever Redis did with the command. -/
  | halted
  /-- A command error, or a bug. -/
  | raised
deriving DecidableEq, Repr

structure Registry where
  /-- The `users` table: names by id. -/
  users : Dict Int String
  /-- The next value of the id sequence, which never goes back. -/
  nextId : Int
  inbound : Stream Inbound
  requests : List Registration

namespace Registration

def finish (request : Registration) (answer : RegisterAnswer) : Registration :=
  { request with stage := .ended answer }

def create (request : Registration) (userId : Int) : CreateAccount :=
  ⟨request.createdAtNs, accountCreationClientOrderId, userId⟩

end Registration

inductive RegisterEvent where
  | arrive (username : String) (nowNs : Int)
  | select (request : Nat)
  | insert (request : Nat)
  /-- `streams.append` is called, on a producer that takes the record or on a halted one. -/
  | append (request : Nat) (halted : Bool)
  /-- Redis runs the command. -/
  | execute (request : Nat) (now : Nat)
  /-- The command will not run again: its batch is over, or it was drained. -/
  | drop (request : Nat)
  | resolve (request : Nat) (outcome : AppendOutcome)
  /-- The compensating delete commits or not, and its reply arrives or not. -/
  | withdraw (request : Nat) (committed replied : Bool)
  /-- The request is cancelled, or its process stops. -/
  | abort (request : Nat)

namespace Registry

def fresh : Registry := ⟨.empty, 1, .empty, []⟩

/-- A step of one request, on the two stores. -/
def update (registry : Registry) (index : Nat)
    (run : Registry → Registration → Registry × Registration) : Registry :=
  match registry.requests[index]? with
  | none => registry
  | some request =>
      { (run registry request).1 with
        requests := registry.requests.set index (run registry request).2 }

def select (registry : Registry) (request : Registration) : Registry × Registration :=
  match request.stage with
  | .select =>
      if request.username ∈ registry.users.values then (registry, request.finish .taken)
      else (registry, { request with stage := .insert })
  | _ => (registry, request)

/-- The column is unique: of two requests for one name, the second commit fails. -/
def insert (registry : Registry) (request : Registration) : Registry × Registration :=
  match request.stage, request.userId with
  | .insert, none =>
      if request.username ∈ registry.users.values then
        ({ registry with nextId := registry.nextId + 1 }, request.finish .failed)
      else
        ({ registry with
            users := registry.users.set registry.nextId request.username
            nextId := registry.nextId + 1 },
          { request with stage := .refresh, userId := some registry.nextId })
  | _, _ => (registry, request)

def append (halted : Bool) (registry : Registry) (request : Registration) :
    Registry × Registration :=
  match request.stage with
  | .refresh =>
      if halted then (registry, { request with stage := .withdraw })
      else (registry, { request with stage := .append, command.live := true })
  | _ => (registry, request)

def execute (now : Nat) (registry : Registry) (request : Registration) :
    Registry × Registration :=
  match request.userId, request.command.live with
  | some userId, true =>
      ({ registry with
          inbound := registry.inbound.append now (.createAccount (request.create userId)) },
        { request with command.executions := request.command.executions + 1 })
  | _, _ => (registry, request)

def drop (registry : Registry) (request : Registration) : Registry × Registration :=
  (registry, { request with command.live := false })

def resolve (outcome : AppendOutcome) (registry : Registry) (request : Registration) :
    Registry × Registration :=
  match request.stage, request.userId, outcome with
  | .append, some userId, .returned =>
      if request.command.executions = 0 then (registry, request)
      else (registry, request.finish (.created userId))
  | .append, _, .halted => (registry, { request with stage := .withdraw })
  | .append, _, .raised => (registry, request.finish .failed)
  | _, _, _ => (registry, request)

def withdraw (committed replied : Bool) (registry : Registry) (request : Registration) :
    Registry × Registration :=
  match request.stage, request.userId with
  | .withdraw, some userId =>
      if committed then
        ({ registry with users := registry.users.erase userId },
          { request.finish (if replied then .halted else .failed) with withdrawn := true })
      else (registry, request.finish .failed)
  | _, _ => (registry, request)

def abort (registry : Registry) (request : Registration) : Registry × Registration :=
  match request.stage with
  | .ended _ => (registry, request)
  | _ => (registry, request.finish .failed)

/-- A step that is not enabled leaves everything as it is. -/
def step (registry : Registry) : RegisterEvent → Registry
  | .arrive username nowNs =>
      { registry with
        requests := registry.requests ++ [⟨username, nowNs, .select, none, false, ⟨0, false⟩⟩] }
  | .select request => registry.update request select
  | .insert request => registry.update request insert
  | .append request halted => registry.update request (append halted)
  | .execute request now => registry.update request (execute now)
  | .drop request => registry.update request drop
  | .resolve request outcome => registry.update request (resolve outcome)
  | .withdraw request committed replied =>
      registry.update request (withdraw committed replied)
  | .abort request => registry.update request abort

def run (events : List RegisterEvent) : Registry := events.foldl step fresh

/-! ## What happens around one append

Told by the events alone, whatever the route makes of them. -/

inductive AppendStage where
  /-- `streams.append` has not been called. -/
  | before
  /-- The request waits for the append. -/
  | waiting
  /-- The append raised `ExchangeHalted`, and the request is still there. -/
  | halted
  | over
deriving DecidableEq, Repr

structure AppendFate where
  stage : AppendStage
  /-- The producer may still send the command. -/
  live : Bool
  /-- How often Redis ran its XADD. -/
  runs : Nat
  /-- After `ExchangeHalted`, the compensating delete was committed. -/
  deleted : Bool
deriving DecidableEq, Repr

def AppendFate.fresh : AppendFate := ⟨.before, false, 0, false⟩

/-- An event of the request. `due` says that its row was just committed and read back. -/
def AppendFate.next (due : Bool) (fate : AppendFate) : RegisterEvent → AppendFate
  | .append _ halted =>
      match due, halted with
      | false, _ => fate
      | true, true => { fate with stage := .halted }
      | true, false => { fate with stage := .waiting, live := true }
  | .execute _ _ => if fate.live then { fate with runs := fate.runs + 1 } else fate
  | .drop _ => { fate with live := false }
  | .resolve _ outcome =>
      match fate.stage, outcome with
      | .waiting, .returned => if fate.runs = 0 then fate else { fate with stage := .over }
      | .waiting, .halted => { fate with stage := .halted }
      | .waiting, .raised => { fate with stage := .over }
      | _, _ => fate
  | .withdraw _ committed _ =>
      match fate.stage with
      | .halted =>
          if committed then { fate with stage := .over, deleted := true }
          else { fate with stage := .over }
      | _ => fate
  | .abort _ =>
      match fate.stage with
      | .waiting | .halted => { fate with stage := .over }
      | _ => fate
  | .arrive _ _ | .select _ | .insert _ => fate

/-- Whose event it is. -/
def subject : RegisterEvent → Option Nat
  | .arrive _ _ => none
  | .select request | .insert request | .append request _ | .execute request _ | .drop request
  | .resolve request _ | .withdraw request _ _ | .abort request => some request

def due (registry : Registry) (index : Nat) : Bool :=
  registry.requests[index]?.map (·.stage) = some .refresh

def track (index : Nat) (state : Registry × AppendFate) (event : RegisterEvent) :
    Registry × AppendFate :=
  (state.1.step event,
    if subject event = some index then state.2.next (state.1.due index) event else state.2)

/-- What became of the append of the request at `index`. -/
def fate (events : List RegisterEvent) (index : Nat) : AppendFate :=
  (events.foldl (track index) (fresh, .fresh)).2

/-- The records that grant a user the initial cash. -/
def grants (registry : Registry) (userId : Int) : List StreamId :=
  (registry.inbound.entries.filter fun entry =>
    match entry.2 with
    | .createAccount create => create.userId = userId
    | _ => false).map (·.1)

end Registry

end QuantArena.Gateway
