import Mathlib.Data.List.Sort
import QuantArena.Fanout.Conflation

/-! What the archiver knows, derived from the outbound stream alone: the market as
fan-out tells it, and the rows of every flush unit that is not written yet. -/

set_option autoImplicit false

namespace QuantArena.Archive

open Foundations Contracts Fanout

structure SnapshotRow where
  symbolId : Int
  secondNs : Int
  side : Int
  level : Nat
  priceTicks : Int
  qty : Int
deriving DecidableEq, Repr

/-- The rows of the three datasets. -/
structure Rows where
  trades : List Trade
  bars : List Bar
  snapshots : List SnapshotRow
deriving DecidableEq

/-- One flush unit's rows, and the bookmark that makes it resumable. -/
structure FlushUnit where
  startNs : Int
  /-- The first record that landed in this unit. -/
  firstStreamId : StreamId
  /-- The record applied just before that one, or `0-0`. -/
  resumeAfter : StreamId
  rows : Rows
  /-- Seconds already sampled. -/
  sampled : Finset Int

namespace FlushUnit

def opened (startNs : Int) (firstStreamId resumeAfter : StreamId) : FlushUnit :=
  ⟨startNs, firstStreamId, resumeAfter, ⟨[], [], []⟩, ∅⟩

def isEmpty (unit : FlushUnit) : Bool :=
  unit.rows.trades.isEmpty && unit.rows.bars.isEmpty && unit.rows.snapshots.isEmpty

end FlushUnit

/-- What the archive is cut by. A bar width that does not divide the flush unit is refused. -/
structure Geometry where
  barWidths : List BarWidth
  bookDepth : Nat
  flushSeconds : Int
  positive : 1 ≤ flushSeconds
  divides : ∀ width ∈ barWidths, width.val ∣ flushSeconds

namespace Geometry

def flushNs (geometry : Geometry) : Int := geometry.flushSeconds * nsPerSecond

def unitStart (geometry : Geometry) (timestampNs : Int) : Int :=
  timestampNs / geometry.flushNs * geometry.flushNs

/-- The seconds of a unit, as `range` walks them. -/
def seconds (geometry : Geometry) (startNs : Int) : List Int :=
  (List.range geometry.flushSeconds.toNat).map fun second => startNs + second * nsPerSecond

end Geometry

def secondStart (timestampNs : Int) : Int := timestampNs / nsPerSecond * nsPerSecond

structure ArchiveState where
  market : MarketState
  /-- The units a record has landed in, by their start. -/
  opened : Dict Int FlushUnit
  /-- Sealed, and waiting to be written. -/
  ready : List FlushUnit
  /-- The latest unit that was sealed. Nothing at or before it is reopened. -/
  sealedThrough : Option Int
  lastStreamId : StreamId
  recordsApplied : Int
  /-- Rows whose unit was already gone. -/
  lateRows : Int

namespace ArchiveState

def new (geometry : Geometry) : ArchiveState :=
  ⟨.new geometry.barWidths, .empty, [], none, .start, 0, 0⟩

variable (geometry : Geometry)

/-! ## Collection -/

/-- `_ensure_unit`. -/
def ensureUnit (state : ArchiveState) (startNs : Int) (streamId resumeAfter : StreamId) :
    ArchiveState :=
  if ∃ sealed ∈ state.sealedThrough, startNs ≤ sealed then state
  else if state.opened.contains startNs then state
  else { state with opened := state.opened.set startNs (.opened startNs streamId resumeAfter) }

/-- Files a row in the unit its time falls in, or counts it as late. -/
def fileRow (state : ArchiveState) (timestampNs : Int) (put : Rows → Rows) : ArchiveState :=
  let start := geometry.unitStart timestampNs
  if state.opened.contains start then
    { state with
      opened := state.opened.alter start fun unit => some { unit with rows := put unit.rows } }
  else { state with lateRows := state.lateRows + 1 }

def putTrade (trade : Trade) (rows : Rows) : Rows := { rows with trades := rows.trades ++ [trade] }

def putBar (bar : Bar) (rows : Rows) : Rows := { rows with bars := rows.bars ++ [bar] }

/-- `_collect_trades`. -/
def collectTrades (state : ArchiveState) (symbolId : Int) : ArchiveState :=
  let (market, trades) := state.market.drainTape symbolId
  trades.foldl (fun state trade => state.fileRow geometry trade.timestampNs (putTrade trade))
    { state with market }

/-- `_collect_bars`. A bar is filed by the unit it opened in. -/
def collectBars (state : ArchiveState) (bars : List Bar) : ArchiveState :=
  bars.foldl (fun state bar => state.fileRow geometry bar.barOpenNs (putBar bar)) state

/-- `_write_snapshot`'s rows: every level the book shows, symbol by symbol. -/
def snapshotRows (market : MarketState) (secondNs : Int) : List SnapshotRow :=
  market.symbols.flatMap fun symbolId =>
    [sideCode .buy, sideCode .sell].flatMap fun side =>
      ((market.book symbolId).levels side geometry.bookDepth).zipIdx.map fun (level, index) =>
        ⟨symbolId, secondNs, side, index, level.1, level.2⟩

def sampleSecond (market : MarketState) (unit : FlushUnit) (second : Int) : FlushUnit :=
  if second ∈ unit.sampled then unit
  else
    { unit with
      sampled := insert second unit.sampled
      rows := { unit.rows with
        snapshots := unit.rows.snapshots ++ snapshotRows geometry market second } }

/-- `_sample_until`. No unit's samples depend on another's. -/
def sampleUntil (state : ArchiveState) (cutoffSecond : Int) : ArchiveState :=
  { state with
    opened := state.opened.mapValues fun start unit =>
      ((geometry.seconds start).takeWhile (· < cutoffSecond)).foldl
        (sampleSecond geometry state.market) unit }

/-! ## Sealing -/

/-- Whether the bucket of the open bar ended at or before `cutoffNs`. -/
def hasEnded (cutoffNs : Int) (width : BarWidth) (builder : BarBuilder) : Bool :=
  match builder.current with
  | some bar => bar.barOpenNs + width * nsPerSecond ≤ cutoffNs
  | none => false

/-- `_force_close_bars`. -/
def forceCloseBars (state : ArchiveState) (cutoffNs : Int) : ArchiveState :=
  let closed := state.market.bars.values.flatMap fun bars =>
    bars.builders.entries.filterMap fun (width, builder) =>
      if hasEnded cutoffNs width builder then builder.flush.2 else none
  let market := { state.market with bars := state.market.bars.mapValues fun _ bars =>
    { bars with builders := bars.builders.mapValues fun width builder =>
        if hasEnded cutoffNs width builder then builder.flush.1 else builder } }
  { state with market }.collectBars geometry closed

/-- Takes a unit out of the open ones, and keeps it if it holds anything. -/
def sealUnit (state : ArchiveState) (start : Int) : ArchiveState :=
  match state.opened.get? start with
  | some unit =>
      { state with
        opened := state.opened.erase start
        sealedThrough := some ((state.sealedThrough.map (max start)).getD start)
        ready := if unit.isEmpty then state.ready else state.ready ++ [unit] }
  | none => state

/-- `_seal_before`. -/
def sealBefore (state : ArchiveState) (cutoffUnit : Int) : ArchiveState :=
  let stale := state.opened.keys.filter (· < cutoffUnit)
  if stale = [] then state
  else (stale.insertionSort (· ≤ ·)).foldl sealUnit (state.forceCloseBars geometry cutoffUnit)

/-- `finish`: seals everything, for the end of a run. -/
def finish (state : ArchiveState) : ArchiveState :=
  match state.opened.keys.max? with
  | none => state
  | some lastUnit =>
      let state := state.sampleUntil geometry (lastUnit + geometry.flushNs)
      let state := state.forceCloseBars geometry (lastUnit + geometry.flushNs)
      (state.opened.keys.insertionSort (· ≤ ·)).foldl sealUnit state

/-! ## One record -/

/-- Folds one record in. Sealing comes last, since the record may close a bar of an earlier unit. -/
def apply (state : ArchiveState) (streamId : StreamId) (record : Outbound) : ArchiveState :=
  let start := geometry.unitStart record.timestampNs
  let counted := { state with
    lastStreamId := streamId
    recordsApplied := state.recordsApplied + 1 }
  let sampled := counted.sampleUntil geometry (secondStart record.timestampNs)
  let entered := sampled.ensureUnit start streamId state.lastStreamId
  let folded := { entered with market := entered.market.apply record (some streamId) }
  let traded := match record with
    | .fill fill => folded.collectTrades geometry fill.symbolId
    | _ => folded
  let (market, closed) := traded.market.drainClosedBars
  ({ traded with market }.collectBars geometry closed).sealBefore geometry start

def applyAll (state : ArchiveState) (entries : List (StreamId × Outbound)) : ArchiveState :=
  entries.foldl (fun state entry => state.apply geometry entry.1 entry.2) state

/-! ## What the writer takes -/

/-- `drain_ready`. -/
def drainReady (state : ArchiveState) : ArchiveState × List FlushUnit :=
  ({ state with ready := [] },
    state.ready.insertionSort fun left right => left.startNs ≤ right.startNs)

/-- Where a reader resumes: everything at or before it is written. -/
def checkpoint (state : ArchiveState) : StreamId :=
  match state.opened.keys.min?.bind state.opened.get? with
  | some oldest => oldest.resumeAfter
  | none => ((state.ready.map (·.resumeAfter)).min?).getD state.lastStreamId

end ArchiveState

end QuantArena.Archive
