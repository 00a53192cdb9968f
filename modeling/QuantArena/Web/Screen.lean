import Mathlib.Data.Multiset.Bind
import QuantArena.Web.MarketData

/-! The trading screen. The panels paint themselves from the buffer, once when they appear and
from then on by a painter that they register under their symbol; a loop calls the painters of what
has changed, once for every animation frame. -/

set_option autoImplicit false

namespace QuantArena.Web

open Foundations Fanout

/-! ## Panels -/

/-- What a panel reads of its symbol. -/
structure View where
  book : Option BookView
  tape : List TradeView
  lastTrade : Option TradeView
  bars : List BarView
deriving DecidableEq

def MarketData.view (data : MarketData) (symbol : Name) : View :=
  ⟨data.book symbol, data.tape symbol, data.lastTrade symbol, data.barSeries symbol chartBarWidth⟩

/-- Rows a side, and rows of the tape. -/
def bookDepth : Nat := 10

def tapeRows : Nat := 30

/-- A price level beside the largest quantity on the screen. -/
structure BookRow where
  priceTicks : Int
  qty : Int
  largest : Int
deriving DecidableEq

structure TapeRow where
  priceTicks : Int
  qty : Int
  tsNs : Int
  buy : Bool
deriving DecidableEq

/-- A candle as the chart's library takes it, in whole seconds. -/
structure Candle where
  time : Int
  openTicks : Int
  highTicks : Int
  lowTicks : Int
  closeTicks : Int
  volume : Int
  rising : Bool
deriving DecidableEq

inductive PanelKind where
  | tab
  | chart
  | book
  | tape
deriving DecidableEq, Repr

/-- What the nodes of a panel show. A row that is blank is `none`, and so is a price shown as a
dash. -/
inductive Panel where
  | tab (price : Option Int)
  | chart (last : Option Int) (candles : List Candle)
  | book (bids asks : List (Option BookRow)) (spread : Option Int)
  | tape (rows : List (Option TapeRow))
deriving DecidableEq

namespace Panel

/-- As React renders it, before the first paint. -/
def blank : PanelKind → Panel
  | .tab => .tab none
  | .chart => .chart none []
  | .book => .book (List.replicate bookDepth none) (List.replicate bookDepth none) none
  | .tape => .tape (List.replicate tapeRows none)

def kind : Panel → PanelKind
  | .tab _ => .tab
  | .chart _ _ => .chart
  | .book _ _ _ => .book
  | .tape _ => .tape

/-- The last price, or the middle of a book with two sides. -/
def tabPrice (view : View) : Option Int :=
  match view.lastTrade, view.book with
  | some trade, _ => some trade.priceTicks
  | none, some levels =>
      match levels.bids.head?, levels.asks.head? with
      -- `Math.round` of a half goes up.
      | some bid, some ask => some ((Double.ofInt (bid.1 + ask.1) + 1) / 2)
      | _, _ => none
  | none, none => none

def chartLast (view : View) : Option Int :=
  (view.lastTrade.map (·.priceTicks)).or (view.bars.getLast?.map (·.closeTicks))

def candleOf (bar : BarView) : Candle where
  time := Double.floorDiv bar.barOpenNs nsPerSecond
  openTicks := bar.openTicks
  highTicks := bar.highTicks
  lowTicks := bar.lowTicks
  closeTicks := bar.closeTicks
  volume := bar.volume
  rising := bar.openTicks ≤ bar.closeTicks

def largestQty (bids asks : List (Int × Int)) : Int :=
  asks.foldl (fun largest level => max largest level.2)
    (bids.foldl (fun largest level => max largest level.2) 0)

def fill (levels : List (Int × Int)) (largest : Int) : List (Option BookRow) :=
  (List.range bookDepth).map fun index =>
    levels[index]?.map fun level => ⟨level.1, level.2, largest⟩

def spread (bids asks : List (Int × Int)) : Option Int :=
  match bids.head?, asks.head? with
  | some bid, some ask => some (Double.ofInt (ask.1 - bid.1))
  | _, _ => none

def paintBook (view : View) : Panel :=
  let bids := (view.book.map (·.bids)).getD []
  let asks := (view.book.map (·.asks)).getD []
  let largest := largestQty bids asks
  .book (fill bids largest) (fill asks largest) (spread bids asks)

def tapeRow (trade : TradeView) : TapeRow where
  priceTicks := trade.priceTicks
  qty := trade.qty
  tsNs := trade.tsNs
  buy := trade.aggressorSide = 1

/-- The buffer keeps the oldest first, the tape reads the newest first. -/
def paintTape (view : View) : Panel :=
  .tape ((List.range tapeRows).map fun index => view.tape.reverse[index]?.map tapeRow)

/-- Candles stay where there are none to draw. -/
def paint (view : View) : Panel → Panel
  | .tab _ => .tab (tabPrice view)
  | .chart _ candles =>
      .chart (chartLast view) (if view.bars = [] then candles else view.bars.map candleOf)
  | .book _ _ _ => paintBook view
  | .tape _ => paintTape view

/-- What a panel should show. -/
def showing (view : View) : PanelKind → Panel
  | .tab => .tab (tabPrice view)
  | .chart => .chart (chartLast view) (view.bars.map candleOf)
  | .book => paintBook view
  | .tape => paintTape view

end Panel

/-! ## The registry of painters -/

abbrev PainterId := Nat

/-- Every `Set` made so far, and which one a symbol's painters are in. -/
structure PaintRegistry where
  sets : List (Finset PainterId)
  current : Dict Name Nat

namespace PaintRegistry

def new : PaintRegistry := ⟨[], .empty⟩

def members (registry : PaintRegistry) (set : Nat) : Finset PainterId :=
  (registry.sets[set]?).getD ∅

def painters (registry : PaintRegistry) (symbol : Name) : Finset PainterId :=
  ((registry.current.get? symbol).map registry.members).getD ∅

/-- Also gives the set that the way back closes over. -/
def register (registry : PaintRegistry) (symbol : Name) (painter : PainterId) :
    PaintRegistry × Nat :=
  match registry.current.get? symbol with
  | some set =>
      ({ registry with sets := registry.sets.set set (insert painter (registry.members set)) }, set)
  | none =>
      (⟨registry.sets ++ [{painter}], registry.current.set symbol registry.sets.length⟩,
        registry.sets.length)

def unregister (registry : PaintRegistry) (symbol : Name) (painter : PainterId) (set : Nat) :
    PaintRegistry :=
  let left := (registry.members set).erase painter
  { sets := registry.sets.set set left
    current := if left = ∅ then registry.current.erase symbol else registry.current }

end PaintRegistry

/-! ## The screen -/

structure Mounted where
  symbol : Name
  set : Nat
  panel : Panel
deriving DecidableEq

/-- What one call of `startFrameLoop` closes over. -/
structure FrameLoop where
  handle : Nat
  stopped : Bool
deriving DecidableEq

structure Screen where
  client : StreamClient
  buffer : MarketData
  registry : PaintRegistry
  panels : Dict PainterId Mounted
  nextPainter : PainterId
  loops : List FrameLoop
  /-- The frames that are asked for, with the loop that asks. -/
  requests : Dict Nat Nat
  nextHandle : Nat

namespace Screen

def new (client : StreamClient) : Screen :=
  ⟨client, .new, .new, .empty, 0, [], .empty, 0⟩

/-- The socket opens. -/
def opened (screen : Screen) : Screen × List Effect :=
  let (client, effects) := screen.client.opened
  ({ screen with client := client, buffer := screen.buffer.applyAll effects }, effects)

def receive (screen : Screen) (message : Message) : Screen × List Effect :=
  let (client, effects) := screen.client.receive message
  ({ screen with client := client, buffer := screen.buffer.applyAll effects }, effects)

/-- A panel paints itself, and registers its painter. -/
def mount (screen : Screen) (kind : PanelKind) (symbol : Name) : Screen :=
  let panel := (Panel.blank kind).paint (screen.buffer.view symbol)
  let (registry, set) := screen.registry.register symbol screen.nextPainter
  { screen with
    registry := registry
    panels := screen.panels.set screen.nextPainter ⟨symbol, set, panel⟩
    nextPainter := screen.nextPainter + 1 }

def unmount (screen : Screen) (painter : PainterId) : Screen :=
  match screen.panels.get? painter with
  | none => screen
  | some mounted =>
      { screen with
        registry := screen.registry.unregister mounted.symbol painter mounted.set
        panels := screen.panels.erase painter }

/-- Asks the display for a frame. -/
def request (screen : Screen) (loop : Nat) : Screen :=
  { screen with
    loops := screen.loops.set loop ⟨screen.nextHandle, false⟩
    requests := screen.requests.set screen.nextHandle loop
    nextHandle := screen.nextHandle + 1 }

def start (screen : Screen) : Screen :=
  request { screen with loops := screen.loops ++ [⟨0, false⟩] } screen.loops.length

/-- What `startFrameLoop` returned. -/
def stop (screen : Screen) (loop : Nat) : Screen :=
  match screen.loops[loop]? with
  | none => screen
  | some running =>
      { screen with
        loops := screen.loops.set loop ⟨running.handle, true⟩
        requests := screen.requests.erase running.handle }

/-- Every call of a painter for the symbols that have changed. -/
def calls (screen : Screen) (changed : Finset Name) : Multiset PainterId :=
  changed.val.bind fun symbol => (screen.registry.painters symbol).val

def paint (screen : Screen) (calls : Multiset PainterId) : Screen :=
  { screen with
    panels := screen.panels.mapValues fun painter mounted =>
      if painter ∈ calls then
        { mounted with panel := mounted.panel.paint (screen.buffer.view mounted.symbol) }
      else mounted }

/-- One call of a loop, with the calls it makes. -/
def tick (screen : Screen) (loop : Nat) : Screen × Multiset PainterId :=
  match screen.loops[loop]? with
  | none => (screen, 0)
  | some running =>
      if running.stopped then (screen, 0)
      else
        let (changed, buffer) := screen.buffer.takeChanged
        let calls := if changed = ∅ then 0 else screen.calls changed
        ((paint { screen with buffer := buffer } calls).request loop, calls)

/-- The loops that asked are called in order. -/
def tickAll (screen : Screen) : List Nat → Screen × Multiset PainterId
  | [] => (screen, 0)
  | loop :: rest =>
      let (next, calls) := screen.tick loop
      let (last, later) := next.tickAll rest
      (last, calls + later)

/-- What is asked for from now on is for the next frame. -/
def frame (screen : Screen) : Screen × Multiset PainterId :=
  tickAll { screen with requests := .empty } (screen.requests.entries.map Prod.snd)

inductive Action where
  | opened
  | receive (message : Message)
  | mount (kind : PanelKind) (symbol : Name)
  | unmount (painter : PainterId)
  | start
  | stop (loop : Nat)
  | frame

/-- One thing that happens in the tab, with what the client asks of the application. -/
def act (screen : Screen) : Action → Screen × List Effect
  | .opened => screen.opened
  | .receive message => screen.receive message
  | .mount kind symbol => (screen.mount kind symbol, [])
  | .unmount painter => (screen.unmount painter, [])
  | .start => (screen.start, [])
  | .stop loop => (screen.stop loop, [])
  | .frame => (screen.frame.1, [])

def run (screen : Screen) : List Action → Screen × List Effect
  | [] => (screen, [])
  | action :: rest =>
      let (next, effects) := screen.act action
      let (last, later) := next.run rest
      (last, effects ++ later)

/-- A loop that has not been stopped. -/
def Looping (screen : Screen) : Prop := ∃ running ∈ screen.loops, running.stopped = false

instance (screen : Screen) : Decidable screen.Looping := by
  unfold Looping
  infer_instance

end Screen

end QuantArena.Web
