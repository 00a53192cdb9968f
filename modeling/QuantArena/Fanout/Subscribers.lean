import Mathlib.Data.Finset.SDiff
import QuantArena.Foundations.Dict

/-! One connection of the fan-out service: its two queues, and the writer that takes
both in one batch and sends it. A frame is whatever the hub encodes. -/

set_option autoImplicit false

namespace QuantArena.Fanout

/-- A channel name, such as `book:QAA:l2`. -/
abbrev Channel := List Char

instance : LawfulBEq Channel := inferInstance

/-- The queue a frame waits in. -/
inductive Lane where
  | marketData
  | privateData
deriving DecidableEq, Repr

/-- Where the writer task stands. -/
inductive Writer (φ : Type) where
  /-- Blocked on the wake event, or not yet run. -/
  | waiting
  /-- Blocked on the socket: the batch's length, its private frames, and what is not sent yet. -/
  | sending (size privateCount : Nat) (rest : List (Lane × φ))
  | ended
deriving DecidableEq, Repr

/-- Private frames held for a client that is not draining them. -/
def privateBufferMax : Nat := 1000

structure Subscriber (φ : Type) where
  userId : Int
  channels : Finset Channel
  /-- Channels subscribed since the last tick. -/
  fresh : Finset Channel
  privateMax : Nat
  marketQueue : List φ
  privateQueue : List φ
  wake : Bool
  writer : Writer φ
  busy : Bool
  closed : Bool
  overflowed : Bool
  sent : Nat
  skipped : Nat
  privateSent : Nat
  /-- What `send` has finished writing, each frame with the queue it came from. -/
  socket : List (Lane × φ)
  /-- Every frame accepted so far. No code reads it. -/
  accepted : List (Lane × φ)
deriving DecidableEq

namespace Subscriber

variable {φ : Type}

/-- A connection whose writer has been started. -/
def new (userId : Int) (privateMax : Nat) : Subscriber φ where
  userId := userId
  channels := ∅
  fresh := ∅
  privateMax := privateMax
  marketQueue := []
  privateQueue := []
  wake := false
  writer := .waiting
  busy := false
  closed := false
  overflowed := false
  sent := 0
  skipped := 0
  privateSent := 0
  socket := []
  accepted := []

/-! ## Accepting work -/

def offerMarket (subscriber : Subscriber φ) (frame : φ) : Subscriber φ × Bool :=
  if subscriber.closed then (subscriber, false)
  else if subscriber.busy then ({ subscriber with skipped := subscriber.skipped + 1 }, false)
  else ({ subscriber with
    marketQueue := subscriber.marketQueue ++ [frame]
    accepted := subscriber.accepted ++ [(.marketData, frame)] }, true)

def handOver (subscriber : Subscriber φ) : Subscriber φ :=
  { subscriber with busy := true, wake := true }

def offerPrivate (subscriber : Subscriber φ) (frame : φ) : Subscriber φ × Bool :=
  if subscriber.closed then (subscriber, false)
  else if subscriber.privateMax ≤ subscriber.privateQueue.length then
    ({ subscriber with overflowed := true }, false)
  else ({ subscriber with
    privateQueue := subscriber.privateQueue ++ [frame]
    accepted := subscriber.accepted ++ [(Lane.privateData, frame)] }.handOver, true)

/-! ## Subscription -/

def subscribe (subscriber : Subscriber φ) (channels : Finset Channel) : Subscriber φ :=
  { subscriber with
    channels := subscriber.channels ∪ channels
    fresh := subscriber.fresh ∪ (channels \ subscriber.channels) }

def unsubscribe (subscriber : Subscriber φ) (channels : Finset Channel) : Subscriber φ :=
  { subscriber with
    channels := subscriber.channels \ channels
    fresh := subscriber.fresh \ channels }

def takeFresh (subscriber : Subscriber φ) : Subscriber φ × Finset Channel :=
  ({ subscriber with fresh := ∅ }, subscriber.fresh)

/-! ## Writing -/

def flush (subscriber : Subscriber φ) : Subscriber φ :=
  if subscriber.closed ∨ subscriber.marketQueue = [] ∧ subscriber.privateQueue = [] then subscriber
  else subscriber.handOver

/-- The batch the writer would take: private frames first. -/
def batch (subscriber : Subscriber φ) : List (Lane × φ) :=
  subscriber.privateQueue.map (Lane.privateData, ·) ++
    subscriber.marketQueue.map (Lane.marketData, ·)

/-- The writer past the wake event. An empty batch is sent at once. -/
def takeBatch (subscriber : Subscriber φ) : Subscriber φ :=
  let taken := { subscriber with wake := false, privateQueue := [], marketQueue := [] }
  if subscriber.batch = [] then { taken with busy := false, writer := .waiting }
  else { taken with
    writer := .sending subscriber.batch.length subscriber.privateQueue.length subscriber.batch }

/-- The top of the writer's loop. An event that is already set does not block. -/
def runWriter (subscriber : Subscriber φ) : Subscriber φ :=
  if subscriber.closed then { subscriber with writer := .ended }
  else if subscriber.wake then subscriber.takeBatch
  else { subscriber with writer := .waiting }

/-- The writer scheduled after the event it was blocked on. -/
def resume (subscriber : Subscriber φ) : Subscriber φ :=
  match subscriber.writer with
  | .waiting => if subscriber.wake then subscriber.takeBatch else subscriber
  | _ => subscriber

/-- The send the writer is blocked on completes. -/
def written (subscriber : Subscriber φ) : Subscriber φ :=
  match subscriber.writer with
  | .sending size privateCount (frame :: rest) =>
      let after := { subscriber with socket := subscriber.socket ++ [frame] }
      if rest = [] then
        { after with
          sent := after.sent + size
          privateSent := after.privateSent + privateCount
          busy := false }.runWriter
      else { after with writer := .sending size privateCount rest }
  | _ => subscriber

/-- The send the writer is blocked on raises. -/
def broken (subscriber : Subscriber φ) : Subscriber φ :=
  match subscriber.writer with
  | .sending _ _ _ => { subscriber with closed := true, busy := false, writer := .ended }
  | _ => subscriber

def stop (subscriber : Subscriber φ) : Subscriber φ :=
  { subscriber with closed := true, wake := true, writer := .ended }

end Subscriber

/-- What the hub, the server and the event loop can do to one connection. -/
inductive Move (φ : Type) where
  | offerMarket (frame : φ)
  | offerPrivate (frame : φ)
  | subscribe (channels : Finset Channel)
  | unsubscribe (channels : Finset Channel)
  | takeFresh
  | flush
  | resume
  | written
  | broken
  | stop
deriving DecidableEq

def Subscriber.step {φ : Type} (subscriber : Subscriber φ) : Move φ → Subscriber φ
  | .offerMarket frame => (subscriber.offerMarket frame).1
  | .offerPrivate frame => (subscriber.offerPrivate frame).1
  | .subscribe channels => subscriber.subscribe channels
  | .unsubscribe channels => subscriber.unsubscribe channels
  | .takeFresh => subscriber.takeFresh.1
  | .flush => subscriber.flush
  | .resume => subscriber.resume
  | .written => subscriber.written
  | .broken => subscriber.broken
  | .stop => subscriber.stop

end QuantArena.Fanout
