import QuantArena.Fanout.Messages
import QuantArena.Foundations.Double

/-! The browser's end of the stream: the sequence tracker, and what the client does with a
message. Writes to the buffer and calls to the application are given as effects, in order. -/

set_option autoImplicit false

namespace QuantArena.Fanout

open Foundations

namespace Message

/-- What a message carries as `seq`. -/
inductive Seq where
  | id (seq : StreamId)
  | counter (seq : Int)
deriving DecidableEq

def ch : Message → Channel
  | .book ch _ _ _ _ | .tapePrint ch _ _ _ _ _ | .barClose ch _ _ _ _ _ _ _ => ch
  | .privateMessage _ _ _ => "private".toList
  | .error _ _ => "error".toList

/-- An error carries none. -/
def seq : Message → Option Seq
  | .book _ seq _ _ _ | .tapePrint _ seq _ _ _ _ | .barClose _ seq _ _ _ _ _ _ => some (.id seq)
  | .privateMessage seq _ _ => some (.counter seq)
  | .error _ _ => none

end Message

end QuantArena.Fanout

namespace QuantArena.Web

open Foundations Fanout

/-! ## Channels -/

inductive ChannelKind where
  | book
  | tape
  | bars
  | privateStream
  | error
  | unknown
deriving DecidableEq, Repr

structure ParsedChannel where
  kind : ChannelKind
  symbol : Option Name
  tier : Option Name
deriving DecidableEq, Repr

def parseChannel (ch : Channel) : ParsedChannel :=
  match ch.splitOn ':' with
  | [first, symbol, tier] =>
      if first = "book".toList then ⟨.book, some symbol, some tier⟩
      else if first = "bars".toList then ⟨.bars, some symbol, some tier⟩
      else ⟨.unknown, none, none⟩
  | [first, symbol] =>
      if first = "tape".toList then ⟨.tape, some symbol, none⟩ else ⟨.unknown, none, none⟩
  | _ =>
      if ch = "private".toList then ⟨.privateStream, none, none⟩
      else if ch = "error".toList then ⟨.error, none, none⟩
      else ⟨.unknown, none, none⟩

/-! ## Sequences -/

inductive SequenceVerdict where
  | ok
  | duplicate
  | outOfOrder
  | gap
deriving DecidableEq, Repr

/-- The two halves as numbers. -/
def parseStreamId : Message.Seq → Int × Int
  | .id seq => (Double.ofInt (ofLex seq).1, Double.ofInt (ofLex seq).2)
  | .counter seq => (Double.ofInt seq, 0)

def compareStreamId (a b : Message.Seq) : Int :=
  if (parseStreamId a).1 ≠ (parseStreamId b).1 then
    if (parseStreamId a).1 < (parseStreamId b).1 then -1 else 1
  else if (parseStreamId a).2 ≠ (parseStreamId b).2 then
    if (parseStreamId a).2 < (parseStreamId b).2 then -1 else 1
  else 0

/-- The counter, or the ordinal half of a stream id. -/
def privateSequence : Message.Seq → Int
  | .counter seq => Double.ofInt seq
  | .id seq => (parseStreamId (.id seq)).2

structure SequenceTracker where
  lastByChannel : Dict Channel Message.Seq
  lastPrivate : Option Int
  privateGaps : Nat
  outOfOrder : Nat

namespace SequenceTracker

def new : SequenceTracker := ⟨.empty, none, 0, 0⟩

def observePrivate (tracker : SequenceTracker) (seq : Message.Seq) :
    SequenceTracker × SequenceVerdict :=
  let next := privateSequence seq
  let seen := { tracker with lastPrivate := some next }
  match tracker.lastPrivate with
  | none => (seen, .ok)
  | some previous =>
      if next = previous then (seen, .duplicate)
      else if next < previous then
        ({ seen with outOfOrder := seen.outOfOrder + 1 }, .outOfOrder)
      else if previous + 1 < next then
        ({ seen with privateGaps := seen.privateGaps + 1 }, .gap)
      else (seen, .ok)

def observeMarketData (tracker : SequenceTracker) (ch : Channel) (seq : Message.Seq) :
    SequenceTracker × SequenceVerdict :=
  let seen := { tracker with lastByChannel := tracker.lastByChannel.set ch seq }
  match tracker.lastByChannel.get? ch with
  | none => (seen, .ok)
  | some previous =>
      if compareStreamId previous seq = 0 then (seen, .duplicate)
      else if 0 < compareStreamId previous seq then
        ({ seen with outOfOrder := seen.outOfOrder + 1 }, .outOfOrder)
      else (seen, .ok)

def observe (tracker : SequenceTracker) (ch : Channel) (seq : Message.Seq) :
    SequenceTracker × SequenceVerdict :=
  if (parseChannel ch).kind = .privateStream then tracker.observePrivate seq
  else tracker.observeMarketData ch seq

/-- Nothing is compared across a reconnect. -/
def reset (tracker : SequenceTracker) : SequenceTracker :=
  { tracker with lastByChannel := .empty, lastPrivate := none }

end SequenceTracker

/-! ## The client -/

inductive ConnectionState where
  | connecting
  | connected
  | reconnecting
  | halted
  | closed
deriving DecidableEq, Repr

inductive Effect where
  | writeBook (symbol : Name) (message : Message)
  | writeTrade (symbol : Name) (message : Message)
  | writeBar (symbol width : Name) (message : Message)
  | onState (state : ConnectionState)
  | onPrivate (message : Message)
  | onResync
  | onError (message : Message)
deriving DecidableEq

structure StreamClient where
  tracker : SequenceTracker
  state : ConnectionState
  resyncs : Nat
  resyncInFlight : Bool

namespace StreamClient

def new : StreamClient := ⟨.new, .closed, 0, false⟩

def setState (client : StreamClient) (state : ConnectionState) : StreamClient × List Effect :=
  if client.state = state then (client, [])
  else ({ client with state := state }, [.onState state])

/-- `socket.onopen`. -/
def opened (client : StreamClient) : StreamClient × List Effect :=
  { client with tracker := client.tracker.reset }.setState .connected

/-- At most one at a time. -/
def resync (client : StreamClient) : StreamClient × List Effect :=
  if client.resyncInFlight then (client, [])
  else ({ client with resyncInFlight := true, resyncs := client.resyncs + 1 }, [.onResync])

/-- What `onResync` answered has settled. -/
def resynced (client : StreamClient) : StreamClient := { client with resyncInFlight := false }

/-- Where a message of market data is written. -/
def routed (channel : ParsedChannel) (message : Message) : List Effect :=
  match channel.symbol with
  | none => []
  | some symbol =>
      match channel.kind, channel.tier with
      | .book, _ => [.writeBook symbol message]
      | .tape, _ => [.writeTrade symbol message]
      | .bars, some width => [.writeBar symbol width message]
      | _, _ => []

/-- The socket is fine when the exchange is halted, and the state says which it is. -/
def receiveError (client : StreamClient) (message : Message) : StreamClient × List Effect :=
  let (client, effects) := match message with
    | .error .halted _ => client.setState .halted
    | .error .resumed _ =>
        if client.state = .halted then client.setState .connected else (client, [])
    | _ => (client, [])
  (client, .onError message :: effects)

def receiveData (client : StreamClient) (message : Message) (seq : Message.Seq) :
    StreamClient × List Effect :=
  let (tracker, verdict) := client.tracker.observe message.ch seq
  let client := { client with tracker := tracker }
  if verdict = .duplicate then (client, [])
  else if (parseChannel message.ch).kind = .privateStream then
    let (client, effects) := if verdict = .gap then client.resync else (client, [])
    (client, effects ++ [.onPrivate message])
  else (client, routed (parseChannel message.ch) message)

/-- Only an error has no `seq`. -/
def receive (client : StreamClient) (message : Message) : StreamClient × List Effect :=
  match message.seq with
  | none => client.receiveError message
  | some seq => client.receiveData message seq

/-- Messages of one connection, in the order they arrive in. -/
def receiveAll (client : StreamClient) : List Message → StreamClient × List Effect
  | [] => (client, [])
  | message :: rest =>
      let (next, effects) := client.receive message
      let (last, later) := next.receiveAll rest
      (last, effects ++ later)

end StreamClient

end QuantArena.Web
