import QuantArena.Archiver.State
import QuantArena.Fanout.Messages

/-! The archive on disk: one file per dataset, symbol and flush unit, replaced whole, and
the checkpoint that says how far the files go. -/

set_option autoImplicit false

namespace QuantArena.Archive

open Foundations Contracts Fanout

/-- `_unit_label`: the day and the second of the day that a unit starts at. -/
def unitLabel (startNs : Int) : Int × Int :=
  (startNs / nsPerSecond / 86400, startNs / nsPerSecond % 86400)

/-- A file's place under its dataset's directory. -/
structure Path where
  symbol : Name
  date : Int
  leaf : Int
deriving DecidableEq, Repr

structure Disk where
  trades : Dict Path (List Trade)
  bars : Dict Path (List Bar)
  snapshots : Dict Path (List SnapshotRow)
  /-- `_checkpoint.json`. -/
  checkpoint : Option StreamId

/-- One file put in place: an earlier file of the same path is gone. -/
inductive Placement where
  | trades (path : Path) (rows : List Trade)
  | bars (path : Path) (rows : List Bar)
  | snapshots (path : Path) (rows : List SnapshotRow)

/-- The prints a placement puts on disk. -/
def Placement.prints : Placement → List Trade
  | .trades _ rows => rows
  | _ => []

namespace Disk

def blank : Disk := ⟨.empty, .empty, .empty, none⟩

/-- `os.replace`. -/
def place (disk : Disk) : Placement → Disk
  | .trades path rows => { disk with trades := disk.trades.set path rows }
  | .bars path rows => { disk with bars := disk.bars.set path rows }
  | .snapshots path rows => { disk with snapshots := disk.snapshots.set path rows }

def placeAll (disk : Disk) (placements : List Placement) : Disk := placements.foldl place disk

end Disk

/-- `ArchiveWriter`, less the counts it keeps for the log. -/
structure ArchiveWriter where
  symbols : SymbolTable

namespace ArchiveWriter

variable (writer : ArchiveWriter)

/-- The listed name, or `id=<n>` for a symbol that is not listed. -/
def symbolName (symbolId : Int) : Name :=
  match (writer.symbols.listed.find? fun symbol => symbol.symbolId = symbolId).map (·.name) with
  | some [] | none => "id=".toList ++ Json.writeInt symbolId
  | some name => name

def pathFor (symbolId startNs : Int) : Path :=
  ⟨writer.symbolName symbolId, (unitLabel startNs).1, (unitLabel startNs).2⟩

/-- One dataset's rows, split by symbol. -/
def parts {ρ : Type} (symbolOf : ρ → Int) (rows : List ρ) : List (Int × List ρ) :=
  (((rows.map symbolOf).dedup).insertionSort (· ≤ ·)).map fun symbolId =>
    (symbolId, rows.filter fun row => symbolOf row = symbolId)

/-- `write_unit`: the files it puts in place, in order. -/
def writeUnit (unit : FlushUnit) : List Placement :=
  (parts Trade.symbolId unit.rows.trades).map
      (fun part => .trades (writer.pathFor part.1 unit.startNs) part.2) ++
    ((parts Bar.symbolId unit.rows.bars).map
      (fun part => .bars (writer.pathFor part.1 unit.startNs) part.2) ++
    (parts SnapshotRow.symbolId unit.rows.snapshots).map
      fun part => .snapshots (writer.pathFor part.1 unit.startNs) part.2)

end ArchiveWriter

end QuantArena.Archive
