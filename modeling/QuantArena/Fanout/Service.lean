import Mathlib.Data.Char
import Mathlib.Data.List.Lex
import QuantArena.Fanout.Conflation

/-! The fan-out process: one event loop shared by the tail of the outbound stream, the
tick, the halt watcher, the request handlers and one writer per connection. A step is
what one of them does between two awaits. -/

set_option autoImplicit false

namespace QuantArena.Fanout

open Foundations Contracts

structure Service where
  hub : Hub
  market : MarketState
  halt : HaltView
  conflator : Conflator
  router : PrivateRouter
  /-- The entries of the outbound stream after the reader's position. -/
  ahead : List (StreamId × Outbound)
  nextConnection : ConnectionId

/-- What a client asks for, or the text of something it cannot ask for. -/
inductive Op where
  | subscribe
  | unsubscribe
  | other (name : String)
deriving DecidableEq, Repr

inductive Action where
  /-- `FanOut.step` handles the next entry of its batch. -/
  | read
  | tick (tsNs : Int)
  | refresh (reading : HaltReading)
  | connect (userId : Int)
  /-- A request that was parsed, or `none` for one that was not. -/
  | request (id : ConnectionId) (frame : Option (Op × List Channel))
  | leave (id : ConnectionId)
  | resume (id : ConnectionId)
  | written (id : ConnectionId)
  | broken (id : ConnectionId)
deriving DecidableEq

namespace Service

/-- The service once it has recovered and nobody is connected yet. -/
def start (market : MarketState) (ahead : List (StreamId × Outbound)) : Service :=
  ⟨.new, market, .new, .new, .new, ahead, 0⟩

def read (settings : Settings) (service : Service) : Service :=
  match service.ahead with
  | [] => service
  | (streamId, record) :: rest =>
      let (router, hub) := service.router.route settings.symbols service.hub record
      { service with
        market := service.market.apply record (some streamId)
        router := router
        hub := hub
        ahead := rest }

def tick (settings : Settings) (service : Service) (tsNs : Int) : Service :=
  let (conflator, market, hub) :=
    service.conflator.tick settings service.halt service.market service.hub tsNs
  { service with conflator := conflator, market := market, hub := hub }

def connect (service : Service) (userId : Int) : Service :=
  { service with
    hub := service.hub.add service.nextConnection (.new userId privateBufferMax)
    nextConnection := service.nextConnection + 1 }

/-- A direct answer: it goes through the private queue, and is handed over at once. -/
def reply (hub : Hub) (id : ConnectionId) (payload : Message) : Hub :=
  let (hub, frame) := hub.encode payload
  (hub.act id (.offerPrivate frame)).act id .flush

/-- `", ".join(sorted(unknown))`. -/
def unknownText (unknown : List Channel) : String :=
  String.ofList ((", ".toList).intercalate (unknown.dedup.mergeSort fun left right => left ≤ right))

def request (settings : Settings) (hub : Hub) (id : ConnectionId) :
    Option (Op × List Channel) → Hub
  | none => reply hub id (.error .unknownChannel "malformed request")
  | some (op, asked) =>
      let known := knownChannels settings
      let unknown := asked.filter (· ∉ known)
      let hub := if unknown = [] then hub
        else reply hub id (.error .unknownChannel (unknownText unknown))
      let channels := (asked.filter (· ∈ known)).toFinset
      if channels = ∅ then hub
      else match op with
        | .subscribe => hub.subscribe id channels
        | .unsubscribe => hub.unsubscribe id channels
        | .other name => reply hub id (.error .unknownChannel ("unknown op: " ++ name))

def leave (hub : Hub) (id : ConnectionId) : Hub :=
  match hub.subscribers.get? id with
  | none => hub
  | some subscriber => hub.remove id subscriber

/-- A request of a connection that is gone has no handler left to read it. -/
def step (settings : Settings) (service : Service) : Action → Service
  | .read => service.read settings
  | .tick tsNs => service.tick settings tsNs
  | .refresh reading => { service with halt := (service.halt.refresh reading).1 }
  | .connect userId => service.connect userId
  | .request id frame =>
      if service.hub.subscribers.contains id then
        { service with hub := request settings service.hub id frame }
      else service
  | .leave id => { service with hub := leave service.hub id }
  | .resume id => { service with hub := service.hub.act id .resume }
  | .written id => { service with hub := service.hub.act id .written }
  | .broken id => { service with hub := service.hub.act id .broken }

end Service

end QuantArena.Fanout
