import Mathlib.Data.Finset.Dedup
import Mathlib.Data.Finset.Erase
import Mathlib.Logic.Function.Basic
import QuantArena.Fanout.Messages

/-! Every connection, indexed by channel for the tick and by user for the private stream.
An index has no entry for a channel or a user without a subscriber, so it is read here as a
function to sets that may be empty. -/

set_option autoImplicit false

namespace QuantArena.Fanout

open Foundations

/-- A subscriber object, by the order in which the server made them. -/
abbrev ConnectionId := Nat

structure Hub where
  subscribers : Dict ConnectionId (Subscriber Message)
  byChannel : Channel → Finset ConnectionId
  byUser : Int → Finset ConnectionId
  serialisations : Nat

namespace Hub

def new : Hub := ⟨.empty, fun _ => ∅, fun _ => ∅, 0⟩

/-- The one place a message becomes a frame. -/
def encode (hub : Hub) (payload : Message) : Hub × Message :=
  ({ hub with serialisations := hub.serialisations + 1 }, payload)

/-! ## Membership -/

def add (hub : Hub) (id : ConnectionId) (subscriber : Subscriber Message) : Hub :=
  { hub with
    subscribers := hub.subscribers.set id subscriber
    byUser := Function.update hub.byUser subscriber.userId
      (insert id (hub.byUser subscriber.userId)) }

def remove (hub : Hub) (id : ConnectionId) (subscriber : Subscriber Message) : Hub :=
  { hub with
    subscribers := hub.subscribers.erase id
    byChannel := fun channel =>
      if channel ∈ subscriber.channels then (hub.byChannel channel).erase id
      else hub.byChannel channel
    byUser := Function.update hub.byUser subscriber.userId
      ((hub.byUser subscriber.userId).erase id) }

/-- What one move does to one connection. -/
def act (hub : Hub) (id : ConnectionId) (move : Move Message) : Hub :=
  { hub with subscribers := hub.subscribers.alter id fun subscriber => some (subscriber.step move) }

def subscribe (hub : Hub) (id : ConnectionId) (channels : Finset Channel) : Hub :=
  let subscribed := hub.act id (.subscribe channels)
  { subscribed with byChannel := fun channel =>
      if channel ∈ channels then insert id (hub.byChannel channel) else hub.byChannel channel }

def unsubscribe (hub : Hub) (id : ConnectionId) (channels : Finset Channel) : Hub :=
  let unsubscribed := hub.act id (.unsubscribe channels)
  { unsubscribed with byChannel := fun channel =>
      if channel ∈ channels then (hub.byChannel channel).erase id else hub.byChannel channel }

/-! ## Delivery -/

def listeners (hub : Hub) (channel : Channel) : Finset ConnectionId := hub.byChannel channel

/-- One frame offered to a set of connections, and how many of them accepted it. -/
def deliver (hub : Hub) (ids : Finset ConnectionId)
    (offer : Subscriber Message → Subscriber Message × Bool) : Hub × Nat :=
  ({ hub with subscribers := hub.subscribers.mapValues fun id subscriber =>
      if id ∈ ids then (offer subscriber).1 else subscriber },
    (hub.subscribers.entries.filter fun entry => entry.1 ∈ ids ∧ (offer entry.2).2).length)

def broadcast (hub : Hub) (channel : Channel) (frame : Message) : Hub × Nat :=
  hub.deliver (hub.listeners channel) (·.offerMarket frame)

/-- Every connection, whatever it subscribes to. -/
def broadcastAll (hub : Hub) (frame : Message) : Hub × Nat :=
  hub.deliver hub.subscribers.keys.toFinset (·.offerMarket frame)

def toUser (hub : Hub) (userId : Int) (frame : Message) : Hub × Nat :=
  hub.deliver (hub.byUser userId) (·.offerPrivate frame)

def hasUser (hub : Hub) (userId : Int) : Bool := hub.byUser userId ≠ ∅

def flush (hub : Hub) : Hub :=
  { hub with subscribers := hub.subscribers.mapValues fun _ subscriber => subscriber.flush }

end Hub

end QuantArena.Fanout
