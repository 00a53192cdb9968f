import QuantArena.Archiver.StateRuns
import QuantArena.Archiver.Writer
import QuantArena.Foundations.Canonical

/-! What a sequence of placements leaves on disk, and which files a unit is written to. -/

set_option autoImplicit false

namespace QuantArena.Archive

open Foundations Contracts Fanout

/-! ## Placing -/

/-- The trades file of a placement, if it is one. -/
def Placement.tradesFile : Placement → Option (Path × List Trade)
  | .trades path rows => some (path, rows)
  | _ => none

def Placement.barsFile : Placement → Option (Path × List Bar)
  | .bars path rows => some (path, rows)
  | _ => none

variable {disk : Disk} {placements : List Placement} {path : Path}

theorem placeAll_kept (disk : Disk) (placements : List Placement) :
    (disk.placeAll placements).trades = (placements.filterMap (·.tradesFile)).foldl
        (fun files entry => files.set entry.1 entry.2) disk.trades ∧
      (disk.placeAll placements).bars = (placements.filterMap (·.barsFile)).foldl
        (fun files entry => files.set entry.1 entry.2) disk.bars ∧
      (disk.placeAll placements).checkpoint = disk.checkpoint := by
  induction placements generalizing disk with
  | nil => exact ⟨rfl, rfl, rfl⟩
  | cons first rest ih =>
      obtain ⟨trades, bars, checkpoint⟩ := ih (disk.place first)
      rw [Disk.placeAll, List.foldl_cons]
      cases first <;> exact ⟨trades, bars, checkpoint⟩

theorem mem_tradesFile {rows : List Trade} :
    (path, rows) ∈ placements.filterMap (·.tradesFile) ↔ .trades path rows ∈ placements := by
  rw [List.mem_filterMap]
  constructor
  · rintro ⟨placement, member, same⟩
    cases placement with
    | trades => cases same; exact member
    | _ => cases same
  · exact fun member => ⟨_, member, rfl⟩

theorem mem_barsFile {rows : List Bar} :
    (path, rows) ∈ placements.filterMap (·.barsFile) ↔ .bars path rows ∈ placements := by
  rw [List.mem_filterMap]
  constructor
  · rintro ⟨placement, member, same⟩
    cases placement with
    | bars => cases same; exact member
    | _ => cases same
  · exact fun member => ⟨_, member, rfl⟩

/-- A file that is found was placed, or was there. -/
theorem placed_trades {rows : List Trade}
    (found : (disk.placeAll placements).trades.get? path = some rows) :
    .trades path rows ∈ placements ∨ disk.trades.get? path = some rows := by
  rw [(placeAll_kept disk placements).1] at found
  exact (Dict.mem_of_get?_foldl_set found).imp_left mem_tradesFile.mp

theorem placed_bars {rows : List Bar}
    (found : (disk.placeAll placements).bars.get? path = some rows) :
    .bars path rows ∈ placements ∨ disk.bars.get? path = some rows := by
  rw [(placeAll_kept disk placements).2.1] at found
  exact (Dict.mem_of_get?_foldl_set found).imp_left mem_barsFile.mp

/-- A file that is placed, or was there, where no placement says anything else. -/
theorem trades_of_placed {rows : List Trade}
    (agree : ∀ other, .trades path other ∈ placements → other = rows)
    (placed : .trades path rows ∈ placements ∨ disk.trades.get? path = some rows) :
    (disk.placeAll placements).trades.get? path = some rows := by
  rw [(placeAll_kept disk placements).1, Dict.get?_foldl_set fun entry member same =>
    agree entry.2 (same ▸ mem_tradesFile.mp member)]
  split
  · rfl
  · rename_i absent
    exact placed.resolve_left fun member =>
      absent (List.mem_map_of_mem (mem_tradesFile.mpr member))

theorem bars_of_placed {rows : List Bar}
    (agree : ∀ other, .bars path other ∈ placements → other = rows)
    (placed : .bars path rows ∈ placements ∨ disk.bars.get? path = some rows) :
    (disk.placeAll placements).bars.get? path = some rows := by
  rw [(placeAll_kept disk placements).2.1, Dict.get?_foldl_set fun entry member same =>
    agree entry.2 (same ▸ mem_barsFile.mp member)]
  split
  · rfl
  · rename_i absent
    exact placed.resolve_left fun member =>
      absent (List.mem_map_of_mem (mem_barsFile.mpr member))

/-! ## Writing a unit -/

variable {geometry : Geometry} {writer : ArchiveWriter} {seen : List Entry} {unit : FlushUnit}

theorem mem_parts {ρ : Type} {symbolOf : ρ → Int} {rows part : List ρ} {symbolId : Int} :
    (symbolId, part) ∈ ArchiveWriter.parts symbolOf rows ↔
      part = rows.filter (fun row => symbolOf row = symbolId) ∧ part ≠ [] := by
  simp only [ArchiveWriter.parts, List.mem_map, List.mem_insertionSort, List.mem_dedup, Prod.mk.injEq]
  constructor
  · rintro ⟨other, ⟨row, member, rfl⟩, rfl, rfl⟩
    exact ⟨rfl, List.ne_nil_of_mem (List.mem_filter.mpr ⟨member, by simp⟩)⟩
  · rintro ⟨rfl, some⟩
    obtain ⟨row, member⟩ := List.exists_mem_of_ne_nil _ some
    have inside := List.mem_filter.mp member
    exact ⟨symbolId, ⟨row, inside.1, by simpa using inside.2⟩, rfl, rfl⟩

/-- The trades files of a whole unit: one for every symbol that traded in it. -/
theorem Whole.trades_written (whole : Whole geometry seen unit) {path : Path} {rows : List Trade} :
    .trades path rows ∈ writer.writeUnit unit ↔ ∃ symbolId, path = writer.pathFor symbolId unit.startNs ∧
      rows = symbolPrints geometry symbolId unit.startNs seen ∧ rows ≠ [] := by
  simp only [ArchiveWriter.writeUnit, List.mem_append, List.mem_map, reduceCtorEq, and_false,
    exists_false, or_false, Placement.trades.injEq, Prod.exists, mem_parts, whole.trades]
  constructor
  · rintro ⟨symbolId, part, ⟨rfl, some⟩, rfl, rfl⟩
    exact ⟨symbolId, rfl, rfl, some⟩
  · rintro ⟨symbolId, rfl, rfl, some⟩
    exact ⟨symbolId, _, ⟨rfl, some⟩, rfl, rfl⟩

theorem Whole.bars_written (whole : Whole geometry seen unit) {path : Path} {rows : List Bar} :
    .bars path rows ∈ writer.writeUnit unit ↔ ∃ symbolId, path = writer.pathFor symbolId unit.startNs ∧
      rows = symbolBars geometry symbolId unit.startNs seen ∧ rows ≠ [] := by
  simp only [ArchiveWriter.writeUnit, List.mem_append, List.mem_map, reduceCtorEq, and_false,
    exists_false, or_false, false_or, Placement.bars.injEq, Prod.exists, mem_parts, whole.bars]
  constructor
  · rintro ⟨symbolId, part, ⟨rfl, some⟩, rfl, rfl⟩
    exact ⟨symbolId, rfl, rfl, some⟩
  · rintro ⟨symbolId, rfl, rfl, some⟩
    exact ⟨symbolId, _, ⟨rfl, some⟩, rfl, rfl⟩

/-! ## Places -/

/-- Two starts with one label are one. -/
theorem unitLabel_inj {left right : Int} (leftWhole : nsPerSecond ∣ left)
    (rightWhole : nsPerSecond ∣ right) (same : unitLabel left = unitLabel right) : left = right := by
  obtain ⟨first, rfl⟩ := leftWhole
  obtain ⟨second, rfl⟩ := rightWhole
  have positive : nsPerSecond ≠ 0 := by decide
  simp only [unitLabel, Int.mul_ediv_cancel_left _ positive, Prod.mk.injEq] at same
  have equal : first = second := by omega
  rw [equal]

/-- One file, one symbol name and one unit. -/
theorem pathFor_inj {left right leftNs rightNs : Int}
    (same : writer.pathFor left (geometry.unitStart leftNs) =
      writer.pathFor right (geometry.unitStart rightNs)) :
    writer.symbolName left = writer.symbolName right ∧
      geometry.unitStart leftNs = geometry.unitStart rightNs := by
  simp only [ArchiveWriter.pathFor, Path.mk.injEq] at same
  exact ⟨same.1, unitLabel_inj (geometry.seconds_dvd _) (geometry.seconds_dvd _)
    (Prod.ext same.2.1 same.2.2)⟩

end QuantArena.Archive
