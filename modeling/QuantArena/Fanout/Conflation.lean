import Mathlib.Data.Finset.Filter
import QuantArena.Fanout.Halt
import QuantArena.Fanout.Private
import QuantArena.Fanout.State

/-! The tick: everything owed since the last one is encoded once and offered to every
subscriber it is for. -/

set_option autoImplicit false

namespace QuantArena.Fanout

open Foundations

namespace MarketState

def drainDirty (market : MarketState) : MarketState × Finset Int :=
  ({ market with dirty := ∅ }, market.dirty)

def drainTape (market : MarketState) (symbolId : Int) : MarketState × List Trade :=
  let (tape, trades) := market.tape.drain symbolId
  ({ market with tape := tape }, trades)

def drainClosedBars (market : MarketState) : MarketState × List Bar :=
  ({ market with closedBars := [] }, market.closedBars)

end MarketState

/-- A hub that has made some offers, and how many were accepted. -/
abbrev Offered := Hub × Nat

namespace Offered

/-- One more frame, encoded once and broadcast. -/
def broadcast (offered : Offered) (channel : Channel) (payload : Message) : Offered :=
  let (hub, frame) := offered.1.encode payload
  let (hub, accepted) := hub.broadcast channel frame
  (hub, offered.2 + accepted)

end Offered

structure Conflator where
  /-- The transitions of the halt view that were broadcast. -/
  haltTransitions : Nat
  ticks : Nat
  framesOffered : Nat
deriving DecidableEq, Repr

namespace Conflator

def new : Conflator := ⟨0, 0, 0⟩

def haltMessage (halt : HaltView) : Message :=
  if halt.halted then Messages.halted halt.reason halt.detail else Messages.resumed

/-- One frame per transition, not one per tick. -/
def haltFrame (conflator : Conflator) (halt : HaltView) (offered : Offered) :
    Conflator × Offered :=
  if halt.transitions = conflator.haltTransitions then (conflator, offered)
  else
    let (hub, frame) := offered.1.encode (haltMessage halt)
    let (hub, accepted) := hub.broadcastAll frame
    ({ conflator with haltTransitions := halt.transitions }, (hub, offered.2 + accepted))

/-- The message of one book channel. -/
def bookMessage (settings : Settings) (symbol : Symbol) (book : Book) (seq : StreamId)
    (tsNs : Int) : Tier → Message
  | .l1 => Messages.bookL1 symbol book seq tsNs
  | .l2 => Messages.bookL2 symbol book settings.bookDepth seq tsNs

/-- The listeners that subscribed since the last tick. -/
def joining (hub : Hub) (channel : Channel) : Finset ConnectionId :=
  (hub.listeners channel).filter fun id =>
    ∃ subscriber ∈ hub.subscribers.get? id, channel ∈ subscriber.fresh

/-- One channel of a book: to all listeners if it moved, else to those that have just joined. -/
def bookChannelFrame (settings : Settings) (market : MarketState) (changed : Finset Int)
    (tsNs : Int) (symbol : Symbol) (book : Book) (offered : Offered) (tier : Tier) : Offered :=
  let channel := bookChannel symbol tier
  let payload := bookMessage settings symbol book market.lastSeq tsNs tier
  if offered.1.listeners channel = ∅ then offered
  else if symbol.symbolId ∈ changed then offered.broadcast channel payload
  else if joining offered.1 channel = ∅ then offered
  else
    let (hub, frame) := offered.1.encode payload
    let (hub, accepted) := hub.deliver (joining offered.1 channel) (·.offerMarket frame)
    (hub, offered.2 + accepted)

def symbolBook (settings : Settings) (market : MarketState) (changed : Finset Int) (tsNs : Int)
    (offered : Offered) (symbol : Symbol) : Offered :=
  match market.books.get? symbol.symbolId with
  | none => offered
  | some book =>
      Tier.all.foldl (bookChannelFrame settings market changed tsNs symbol book) offered

def books (settings : Settings) (market : MarketState) (tsNs : Int) (offered : Offered) :
    MarketState × Offered :=
  let (drained, changed) := market.drainDirty
  (drained, settings.symbols.listed.foldl (symbolBook settings drained changed tsNs) offered)

/-- Drained whether or not anyone is listening. -/
def symbolTape (state : MarketState × Offered) (symbol : Symbol) : MarketState × Offered :=
  let (market, trades) := state.1.drainTape symbol.symbolId
  if trades = [] ∨ state.2.1.listeners (tapeChannel symbol) = ∅ then (market, state.2)
  else (market, trades.foldl (fun offered trade =>
    offered.broadcast (tapeChannel symbol) (Messages.tapePrint symbol trade)) state.2)

def tape (settings : Settings) (market : MarketState) (offered : Offered) :
    MarketState × Offered :=
  settings.symbols.listed.foldl symbolTape (market, offered)

def barFrame (settings : Settings) (lastSeq : StreamId) (offered : Offered) (bar : Bar) : Offered :=
  match settings.symbols.listed.find? (·.symbolId = bar.symbolId) with
  | none => offered
  | some symbol =>
      let channel := barsChannel symbol bar.bucketSeconds settings.realSecondsPerSimulatedMinute
      if offered.1.listeners channel = ∅ then offered
      else offered.broadcast channel
        (Messages.barClose symbol bar lastSeq settings.realSecondsPerSimulatedMinute)

def bars (settings : Settings) (market : MarketState) (offered : Offered) :
    MarketState × Offered :=
  let (drained, closed) := market.drainClosedBars
  (drained, closed.foldl (barFrame settings drained.lastSeq) offered)

/-- Every subscriber's `fresh` set is cleared whether or not it got a frame. -/
def takeAllFresh (hub : Hub) : Hub :=
  { hub with subscribers := hub.subscribers.mapValues fun _ subscriber => subscriber.takeFresh.1 }

def tick (settings : Settings) (conflator : Conflator) (halt : HaltView) (market : MarketState)
    (hub : Hub) (tsNs : Int) : Conflator × MarketState × Hub :=
  let (conflator, offered) := conflator.haltFrame halt (hub, 0)
  let (market, offered) := books settings market tsNs offered
  let (market, offered) := tape settings market offered
  let (market, offered) := bars settings market offered
  ({ conflator with
      ticks := conflator.ticks + 1
      framesOffered := conflator.framesOffered + offered.2 },
    market, (takeAllFresh offered.1).flush)

end Conflator

end QuantArena.Fanout
