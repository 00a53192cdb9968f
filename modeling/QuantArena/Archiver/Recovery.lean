import QuantArena.Archiver.RunnerProperties
import QuantArena.Foundations.Run

/-! Runs of the archiver with writes that raise and processes that die: what a file holds is
always what the whole stream has for it, and below the checkpoint nothing is missing. -/

set_option autoImplicit false

namespace QuantArena.Archive

open Foundations Contracts Fanout

variable (geometry : Geometry) (writer : ArchiveWriter) (stream : Foundations.Stream Outbound)

/-- The symbols that trade anywhere on the stream. -/
def tradedSymbols : List Int := (stream.entries.filterMap printOf).map (·.symbolId)

/-- No two symbols of the stream are filed under one name, and each name is that of one directory. -/
def NamesApart : Prop :=
  (∀ symbolId ∈ tradedSymbols stream, '/' ∉ writer.symbolName symbolId) ∧
    ∀ left ∈ tradedSymbols stream, ∀ right ∈ tradedSymbols stream,
      writer.symbolName left = writer.symbolName right → left = right

instance : Decidable (NamesApart writer stream) := inferInstanceAs (Decidable (_ ∧ _))

/-- A file as the whole stream has it. -/
def Placement.Expected : Placement → Prop
  | .trades path rows => ∃ entry ∈ stream.entries, ∃ symbolId ∈ tradedSymbols stream,
      path = writer.pathFor symbolId (unitOf geometry entry) ∧
        rows = symbolPrints geometry symbolId (unitOf geometry entry) stream.entries ∧ rows ≠ []
  | .bars path rows => ∃ entry ∈ stream.entries, ∃ symbolId ∈ tradedSymbols stream,
      path = writer.pathFor symbolId (unitOf geometry entry) ∧
        rows = symbolBars geometry symbolId (unitOf geometry entry) stream.entries ∧ rows ≠ []
  | .snapshots _ _ => True

/-- Whatever file of prints or of bars is on disk is as the whole stream has it. -/
structure Sound (disk : Disk) : Prop where
  trades : ∀ path rows, disk.trades.get? path = some rows →
    (Placement.trades path rows).Expected geometry writer stream
  bars : ∀ path rows, disk.bars.get? path = some rows →
    (Placement.bars path rows).Expected geometry writer stream

/-- The files of one unit are there: its trades and, where `both` is asked, its bars. -/
def Kept (both : Bool) (disk : Disk) (start : Int) : Prop :=
  ∀ symbolId ∈ tradedSymbols stream, symbolPrints geometry symbolId start stream.entries ≠ [] →
    disk.trades.get? (writer.pathFor symbolId start) =
        some (symbolPrints geometry symbolId start stream.entries) ∧
      (both = true → symbolBars geometry symbolId start stream.entries ≠ [] →
        disk.bars.get? (writer.pathFor symbolId start) =
          some (symbolBars geometry symbolId start stream.entries))

variable {geometry writer stream} {disk : Disk} {placements : List Placement} {both : Bool}
  {start : Int}

theorem mem_tradedSymbols {symbolId : Int} {entries : List Entry}
    (inside : ∀ entry ∈ entries, entry ∈ stream.entries)
    (some : symbolPrints geometry symbolId start entries ≠ []) :
    symbolId ∈ tradedSymbols stream ∧ ∃ entry ∈ entries, (printOf entry).isSome ∧
      unitOf geometry entry = start := by
  obtain ⟨trade, member⟩ := List.exists_mem_of_ne_nil _ some
  obtain ⟨entry, own, printed, unit, rfl⟩ := mem_symbolPrints.mp member
  exact ⟨List.mem_map.mpr ⟨trade, List.mem_filterMap.mpr ⟨entry, inside entry own, printed⟩, rfl⟩,
    entry, own, by simp [printed], unit⟩

section
variable (apart : NamesApart writer stream)
include apart

/-- Of one file only one version is expected. -/
theorem place_inj {left right : Int} {entry other : Entry} (leftTraded : left ∈ tradedSymbols stream)
    (rightTraded : right ∈ tradedSymbols stream)
    (same : writer.pathFor left (unitOf geometry entry) =
      writer.pathFor right (unitOf geometry other)) :
    left = right ∧ unitOf geometry entry = unitOf geometry other := by
  obtain ⟨name, unit⟩ := pathFor_inj same
  exact ⟨apart.2 left leftTraded right rightTraded name, unit⟩

theorem Kept.placeAll (kept : Kept geometry writer stream both disk start)
    (expected : ∀ placement ∈ placements, placement.Expected geometry writer stream) :
    Kept geometry writer stream both (disk.placeAll placements) start := by
  intro symbolId traded some
  obtain ⟨entry, inside, -, rfl⟩ := (mem_tradedSymbols (fun _ => id) some).2
  obtain ⟨trades, bars⟩ := kept symbolId traded some
  constructor
  · refine trades_of_placed (fun rows placed => ?_) (.inr trades)
    obtain ⟨other, -, another, anotherTraded, place, rows, -⟩ := expected _ placed
    obtain ⟨rfl, unit⟩ := place_inj apart traded anotherTraded place
    rw [rows, unit]
  · intro asked some
    refine bars_of_placed (fun rows placed => ?_) (.inr (bars asked some))
    obtain ⟨other, -, another, anotherTraded, place, rows, -⟩ := expected _ placed
    obtain ⟨rfl, unit⟩ := place_inj apart traded anotherTraded place
    rw [rows, unit]

omit apart in
theorem Sound.placeAll (sound : Sound geometry writer stream disk)
    (expected : ∀ placement ∈ placements, placement.Expected geometry writer stream) :
    Sound geometry writer stream (disk.placeAll placements) where
  trades := fun path rows found => (placed_trades found).elim (expected _) (sound.trades path rows)
  bars := fun path rows found => (placed_bars found).elim (expected _) (sound.bars path rows)

end

/-! ## A unit that the stream agrees with -/

/-- A whole unit that no record outside the part falls in. -/
structure Settled (geometry : Geometry) (stream : Foundations.Stream Outbound) (unit : FlushUnit) :
    Prop where
  whole : Whole geometry stream.entries unit
  origin : ∃ entry ∈ stream.entries, unitOf geometry entry = unit.startNs

variable {unit : FlushUnit}

theorem Settled.expected (settled : Settled geometry stream unit) :
    ∀ placement ∈ writer.writeUnit unit, placement.Expected geometry writer stream := by
  obtain ⟨entry, inside, own⟩ := settled.origin
  intro placement member
  cases placement with
  | trades path rows =>
      obtain ⟨symbolId, place, same, some⟩ := settled.whole.trades_written.mp member
      exact ⟨entry, inside, symbolId, (mem_tradedSymbols (fun _ => id) (same ▸ some)).1,
        own ▸ place, own ▸ same, some⟩
  | bars path rows =>
      obtain ⟨symbolId, place, same, some⟩ := settled.whole.bars_written.mp member
      have prints : symbolPrints geometry symbolId unit.startNs stream.entries ≠ [] := by
        intro none
        rw [same, symbolBars, none] at some
        exact some (currents_new _ _)
      exact ⟨entry, inside, symbolId, (mem_tradedSymbols (fun _ => id) prints).1,
        own ▸ place, own ▸ same, some⟩
  | snapshots => trivial

/-- A unit whose files are all among the placements, or all its trades files. -/
theorem Settled.kept (apart : NamesApart writer stream) (settled : Settled geometry stream unit)
    (expected : ∀ placement ∈ placements, placement.Expected geometry writer stream)
    (covers : ∀ placement ∈ writer.writeUnit unit,
      both = true ∨ placement.tradesFile.isSome → placement ∈ placements) :
    Kept geometry writer stream both (disk.placeAll placements) unit.startNs := by
  obtain ⟨entry, -, own⟩ := settled.origin
  intro symbolId traded some
  constructor
  · refine trades_of_placed (fun rows placed => ?_) (.inl (covers _ ?_ (.inr rfl)))
    · obtain ⟨other, -, another, anotherTraded, place, rows, -⟩ := expected _ placed
      rw [← own] at place
      obtain ⟨rfl, unit⟩ := place_inj apart traded anotherTraded place
      rw [rows, ← unit, own]
    · exact settled.whole.trades_written.mpr ⟨symbolId, rfl, rfl, some⟩
  · intro asked some
    refine bars_of_placed (fun rows placed => ?_) (.inl (covers _ ?_ (.inl asked)))
    · obtain ⟨other, -, another, anotherTraded, place, rows, -⟩ := expected _ placed
      rw [← own] at place
      obtain ⟨rfl, unit⟩ := place_inj apart traded anotherTraded place
      rw [rows, ← unit, own]
    · exact settled.whole.bars_written.mpr ⟨symbolId, rfl, rfl, some⟩

/-! ## The process and its disk -/

variable {first last : Nat} {gone : List FlushUnit} {archiver : Archiver}

/-- Away from the open unit, the part that was read is all the stream has. -/
theorem Stands.whole_prints (stands : Stands geometry stream first last gone archiver)
    (timed : Timed stream.entries) (boundary : Boundary geometry stream first)
    (before : start < openUnit geometry (segment stream first last))
    (own : ∃ entry ∈ segment stream first last, unitOf geometry entry = start) :
    unitPrints geometry start stream.entries =
      unitPrints geometry start (segment stream first last) := by
  obtain ⟨entry, inside, rfl⟩ := own
  have within := mem_segment_drop inside
  have early : unitPrints geometry (unitOf geometry entry) (stream.entries.take first) = [] :=
    unitPrints_of_ne fun other member => (boundary other member entry within).ne
  have late : unitPrints geometry (unitOf geometry entry) (stream.entries.drop last) = [] :=
    unitPrints_of_ne fun other member =>
      (before.trans_le (openUnit_le_rest timed (List.ne_nil_of_mem inside) member)).ne'
  calc unitPrints geometry (unitOf geometry entry) stream.entries
      = unitPrints geometry (unitOf geometry entry)
          (stream.entries.take first ++ segment stream first last ++ stream.entries.drop last) := by
        rw [take_segment stream stands.ordered, List.take_append_drop]
    _ = _ := by
        rw [unitPrints_append, unitPrints_append, early, late, List.nil_append, List.append_nil]

theorem Stands.settled (stands : Stands geometry stream first last gone archiver)
    (timed : Timed stream.entries) (boundary : Boundary geometry stream first) :
    ∀ unit ∈ gone, Settled geometry stream unit := by
  intro unit member
  have inside := List.mem_append_left archiver.state.ready member
  have whole := stands.described.whole unit inside
  obtain ⟨before, entry, own, unitOwn⟩ := stands.described.earlier unit inside
  have prints := stands.whole_prints timed boundary before ⟨entry, own, unitOwn⟩
  refine ⟨⟨whole.trades.trans prints.symm, fun symbolId => ?_⟩, entry, mem_segment own, unitOwn⟩
  rw [whole.bars, symbolBars, symbolBars, symbolPrints, symbolPrints, prints]

/-- A unit before the open one is there if those that were sealed are, and the older ones. -/
theorem Stands.kept_before (stands : Stands geometry stream first last gone archiver)
    (timed : Timed stream.entries) (filled : segment stream first last ≠ [])
    (before : start < openUnit geometry (segment stream first last))
    (sealed : ∀ unit ∈ gone, unit.startNs = start → Kept geometry writer stream both disk start)
    (older : ∀ entry ∈ stream.entries.take first, unitOf geometry entry = start →
      Kept geometry writer stream both disk start) :
    Kept geometry writer stream both disk start := by
  intro symbolId traded some
  obtain ⟨entry, inside, printed, own⟩ := (mem_tradedSymbols (fun _ => id) some).2
  suffices Kept geometry writer stream both disk start from this symbolId traded some
  rw [← List.take_append_drop last stream.entries] at inside
  rcases List.mem_append.mp inside with early | late
  · cases mem_take_or_segment stands.ordered early with
    | inl old => exact older entry old own
    | inr part =>
        obtain ⟨unit, member, same⟩ :=
          stands.described.complete_of_print part printed (own ▸ before)
        rw [stands.drained, List.append_nil] at member
        exact sealed unit member (same.trans own)
  · have later := @openUnit_le_rest geometry stream first last timed entry filled late
    exact absurd (own ▸ later) (not_le.mpr before)

/-! ## What a write leaves -/

/-- The placements of the first so many units and of part of the next. -/
def placed (writer : ArchiveWriter) (ready : List FlushUnit) (units files : Nat) : List Placement :=
  (ready.take units).flatMap writer.writeUnit ++
    (System.nextUnit writer ready units).take files

variable {ready : List FlushUnit} {units files : Nat}

theorem nextUnit_cons (ready : List FlushUnit) (units : Nat) :
    System.nextUnit writer ready units ++ (ready.drop (units + 1)).flatMap writer.writeUnit =
      (ready.drop units).flatMap writer.writeUnit := by
  rw [System.nextUnit, ← List.tail_drop]
  cases ready.drop units <;> rfl

/-- What is placed and what is left over are together all the files of the units. -/
theorem placed_append_leftOver (ready : List FlushUnit) (units files : Nat) :
    placed writer ready units files ++ System.leftOver writer ready units files =
      ready.flatMap writer.writeUnit := by
  have next := List.take_append_drop files (System.nextUnit writer ready units)
  calc placed writer ready units files ++ System.leftOver writer ready units files
      = (ready.take units).flatMap writer.writeUnit ++
          ((System.nextUnit writer ready units).take files ++
            (System.nextUnit writer ready units).drop files ++
            (ready.drop (units + 1)).flatMap writer.writeUnit) := by
        simp only [placed, System.leftOver, List.append_assoc]
    _ = ready.flatMap writer.writeUnit := by
        rw [next, nextUnit_cons, ← List.flatMap_append, List.take_append_drop]

theorem mem_placed {placement : Placement} (member : placement ∈ placed writer ready units files) :
    ∃ unit ∈ ready, placement ∈ writer.writeUnit unit := by
  have all := @placed_append_leftOver writer ready units files
  exact List.mem_flatMap.mp (all ▸ List.mem_append_left _ member)

/-! ## The invariant -/

/-- A system in which nothing below the checkpoint is missing, unless prints were dropped. -/
structure Safe (geometry : Geometry) (writer : ArchiveWriter)
    (stream : Foundations.Stream Outbound) (both : Bool) (first last place : Nat)
    (gone : List FlushUnit) (system : System) : Prop where
  stands : Stands geometry stream first last gone system.archiver
  boundary : Boundary geometry stream first
  recorded : system.disk.checkpoint.getD .start = stream.position place
  between : first ≤ place ∧ place ≤ last
  cut : Boundary geometry stream place
  sound : Sound geometry writer stream system.disk
  below : ∀ entry ∈ stream.entries.take place,
    Kept geometry writer stream both system.disk (unitOf geometry entry)
  wrote : system.dropped = [] →
    ∀ unit ∈ gone, Kept geometry writer stream both system.disk unit.startNs
  spared : both = true → system.dropped = []
  written : both = true → ∀ start ∈ system.written, ∀ entry ∈ stream.entries,
    unitOf geometry entry ≤ start →
      Kept geometry writer stream true system.disk (unitOf geometry entry)

theorem start_safe (geometry : Geometry) (writer : ArchiveWriter)
    (stream : Foundations.Stream Outbound) (both : Bool) :
    Safe geometry writer stream both 0 0 0 [] (.start geometry) where
  stands := resume_stands (Nat.zero_le _) rfl
  boundary := boundary_start geometry stream
  recorded := rfl
  between := ⟨le_rfl, le_rfl⟩
  cut := boundary_start geometry stream
  sound := ⟨fun path rows found => by simp [System.start, Disk.blank, Dict.get?] at found,
    fun path rows found => by simp [System.start, Disk.blank, Dict.get?] at found⟩
  below := by simp
  wrote := by simp
  spared := fun _ => rfl
  written := by simp [System.start]

/-- The process after a batch, with what it then has to write. -/
structure Drained (geometry : Geometry) (writer : ArchiveWriter)
    (stream : Foundations.Stream Outbound) (first last : Nat) (gone ready : List FlushUnit)
    (archiver : Archiver) : Prop where
  stands : Stands geometry stream first last (gone ++ ready) archiver
  settled : ∀ unit ∈ gone ++ ready, Settled geometry stream unit

theorem Drained.expected (drained : Drained geometry writer stream first last gone ready archiver)
    {units files : Nat} : ∀ placement ∈ placed writer ready units files,
      placement.Expected geometry writer stream := by
  intro placement member
  obtain ⟨unit, inside, own⟩ := mem_placed member
  exact (drained.settled unit (List.mem_append_right _ inside)).expected placement own

variable {system : System} {place : Nat}

theorem Safe.read (safe : Safe geometry writer stream both first last place gone system)
    (timed : Timed stream.entries) (count : Nat) :
    ∃ further, last ≤ further ∧ Drained geometry writer stream first further gone
      (((system.archiver.read geometry (stream.read system.archiver.position count)).state).drainReady).2
      ⟨(((system.archiver.read geometry
          (stream.read system.archiver.position count)).state).drainReady).1,
        (system.archiver.read geometry (stream.read system.archiver.position count)).position⟩ := by
  obtain ⟨further, onward, -, stands⟩ := safe.stands.read timed count
  exact ⟨further, onward, stands, stands.settled timed safe.boundary⟩

/-- Placing files does not move the checkpoint. -/
theorem Safe.recorded_kept (safe : Safe geometry writer stream both first last place gone system)
    (placements : List Placement) :
    (system.disk.placeAll placements).checkpoint.getD .start = stream.position place := by
  rw [(placeAll_kept system.disk placements).2.2, safe.recorded]

section
variable (apart : NamesApart writer stream) (timed : Timed stream.entries)
  (safe : Safe geometry writer stream both first last place gone system)
  {further : Nat} (drained : Drained geometry writer stream first further gone ready archiver)
  (units files)
include apart safe drained

theorem Drained.below : ∀ entry ∈ stream.entries.take place,
    Kept geometry writer stream both
      (system.disk.placeAll (placed writer ready units files)) (unitOf geometry entry) :=
  fun entry member => (safe.below entry member).placeAll apart drained.expected

theorem Drained.stays (intact : system.dropped = []) : ∀ unit ∈ gone,
    Kept geometry writer stream both
      (system.disk.placeAll (placed writer ready units files)) unit.startNs :=
  fun unit member => (safe.wrote intact unit member).placeAll apart drained.expected

omit safe in
variable {units} in
theorem Drained.taken {unit : FlushUnit} (member : unit ∈ ready.take units) :
    Kept geometry writer stream both
      (system.disk.placeAll (placed writer ready units files)) unit.startNs :=
  (drained.settled unit (List.mem_append_right _ (List.mem_of_mem_take member))).kept apart
    drained.expected fun _ own _ =>
      List.mem_append_left _ (List.mem_flatMap.mpr ⟨unit, member, own⟩)

include timed

/-- A unit before the open one, where the units that were sealed are on disk. -/
theorem Drained.kept_before {start : Int} (some : ready ≠ [])
    (before : start < openUnit geometry (segment stream first further))
    (sealed : ∀ unit ∈ gone ++ ready, unit.startNs = start → Kept geometry writer stream both
      (system.disk.placeAll (placed writer ready units files)) start) :
    Kept geometry writer stream both
      (system.disk.placeAll (placed writer ready units files)) start := by
  obtain ⟨unit, member⟩ := List.exists_mem_of_ne_nil _ some
  obtain ⟨-, entry, inside, -⟩ := drained.stands.described.earlier unit
    (List.mem_append_left _ (List.mem_append_right _ member))
  refine drained.stands.kept_before timed (List.ne_nil_of_mem inside) before sealed ?_
  intro entry member own
  exact own ▸ drained.below units files apart safe entry
    (List.mem_of_mem_take (by rwa [List.take_take, Nat.min_eq_left safe.between.1]))

/-- Where units were written whole, so was every unit before them. -/
theorem Drained.written (asked : both = true) :
    ∀ start ∈ system.written ++ (ready.take units).map (·.startNs), ∀ entry ∈ stream.entries,
      unitOf geometry entry ≤ start → Kept geometry writer stream true
        (system.disk.placeAll (placed writer ready units files)) (unitOf geometry entry) := by
  cases asked
  intro start member entry inside reached
  cases List.mem_append.mp member with
  | inl old => exact (safe.written rfl start old entry inside reached).placeAll apart drained.expected
  | inr new =>
      obtain ⟨written, own, rfl⟩ := List.mem_map.mp new
      have isReady := List.mem_of_mem_take own
      have before := (drained.stands.described.earlier written
        (List.mem_append_left _ (List.mem_append_right _ isReady))).1
      refine drained.kept_before units files apart timed safe (List.ne_nil_of_mem isReady)
        (reached.trans_lt before) fun unit member same => ?_
      cases List.mem_append.mp member with
      | inl old => exact same ▸ drained.stays units files apart safe (safe.spared rfl) unit old
      | inr sealed =>
          rw [← List.take_append_drop units ready] at sealed
          cases List.mem_append.mp sealed with
          | inl early => exact same ▸ drained.taken files apart early
          | inr late =>
              have ascending := (List.pairwise_append.mp
                (List.pairwise_append.mp drained.stands.described.ascending).1).2.1
              rw [← List.take_append_drop units ready] at ascending
              have less := (List.pairwise_append.mp ascending).2.2 written own unit late
              omega

/-- The process dies, and another one resumes. -/
theorem Drained.crashed (archiver' : Archiver) :
    Safe geometry writer stream both place place place []
      ((System.writeUnits writer { system with archiver := archiver' } ready units files).restart
        geometry) := by
  have below := drained.below units files apart safe
  have written := drained.written units files apart timed safe
  have recorded := safe.recorded_kept (placed writer ready units files)
  exact
    { stands := resume_stands (safe.between.2.trans safe.stands.within) recorded
      boundary := safe.cut
      recorded := recorded
      between := ⟨le_rfl, le_rfl⟩
      cut := safe.cut
      sound := safe.sound.placeAll drained.expected
      below := below
      wrote := by simp
      spared := fun _ => rfl
      written := written }

omit timed in
/-- Where nothing is left over, the files of every unit that sealed are there. -/
theorem Drained.complete (alone : both = false) (intact : system.dropped = [])
    (all : (System.leftOver writer ready units files).flatMap (·.prints) = []) :
    ∀ unit ∈ gone ++ ready, Kept geometry writer stream both
      (system.disk.placeAll (placed writer ready units files)) unit.startNs := by
  intro unit member
  cases List.mem_append.mp member with
  | inl old => exact drained.stays units files apart safe intact unit old
  | inr new =>
      have settled := drained.settled unit member
      refine settled.kept apart drained.expected fun placement own asked => ?_
      have whole := List.mem_flatMap.mpr ⟨unit, new, own⟩
      rw [← @placed_append_leftOver writer ready units files] at whole
      refine (List.mem_append.mp whole).resolve_right fun left => ?_
      cases placement with
      | trades path rows =>
          obtain ⟨symbolId, -, -, some⟩ := settled.whole.trades_written.mp own
          exact some (List.flatMap_eq_nil_iff.mp all _ left)
      | _ => simp [alone, Placement.tradesFile] at asked

omit timed in
/-- A write raises: what is left over is dropped. -/
theorem Drained.raised (onward : last ≤ further) (alone : both = false) :
    Safe geometry writer stream both first further place (gone ++ ready)
      { System.writeUnits writer { system with archiver } ready units files with
        dropped := system.dropped ++
          (System.leftOver writer ready units files).flatMap (·.prints) } := by
  have below := drained.below units files apart safe
  have complete := drained.complete units files apart safe alone
  exact
    { stands := drained.stands
      boundary := safe.boundary
      recorded := safe.recorded_kept (placed writer ready units files)
      between := ⟨safe.between.1, safe.between.2.trans onward⟩
      cut := safe.cut
      sound := safe.sound.placeAll drained.expected
      below := below
      wrote := fun intact => by
        obtain ⟨before, none⟩ := List.append_eq_nil_iff.mp intact
        exact complete before none
      spared := fun asked => by simp [alone] at asked
      written := fun asked => by simp [alone] at asked }

omit units files in
/-- Every file is put in place, and the checkpoint moves. -/
theorem Drained.done (onward : last ≤ further) (intact : ready ≠ [] → system.dropped = []) :
    ∃ moved, Safe geometry writer stream both first further moved (gone ++ ready)
      (System.writeReady writer { system with archiver } ready) := by
  by_cases none : ready = []
  · cases none
    refine ⟨place, ?_⟩
    rw [System.writeReady, if_pos rfl, List.append_nil]
    exact
      { stands := by simpa using drained.stands
        boundary := safe.boundary
        recorded := safe.recorded
        between := ⟨safe.between.1, safe.between.2.trans onward⟩
        cut := safe.cut
        sound := safe.sound
        below := safe.below
        wrote := safe.wrote
        spared := safe.spared
        written := safe.written }
  · obtain ⟨moved, checkpoint, after, within, early, late⟩ :=
      drained.stands.checkpoint timed (by simp [none])
    have cut := safe.boundary.move after early late
      (within.le.trans drained.stands.within)
    refine ⟨moved, ?_⟩
    have all : ∀ unit ∈ gone ++ ready, Kept geometry writer stream both
        (system.disk.placeAll (placed writer ready ready.length 0)) unit.startNs := by
      intro unit member
      cases List.mem_append.mp member with
      | inl old => exact drained.stays _ _ apart safe (intact none) unit old
      | inr new => exact drained.taken 0 apart (by rwa [List.take_length])
    have sound := safe.sound.placeAll (@Drained.expected _ _ _ _ _ _ _ _ drained ready.length 0)
    have written := drained.written ready.length 0 apart timed safe
    rw [System.writeReady, if_neg none]
    exact
      { stands := drained.stands
        boundary := safe.boundary
        recorded := checkpoint
        between := ⟨after.le, within.le⟩
        cut := cut
        sound := ⟨sound.trades, sound.bars⟩
        below := fun entry member => by
          cases mem_take_or_segment after.le member with
          | inl old =>
              exact drained.below _ _ apart safe entry
                (List.mem_of_mem_take (by rwa [List.take_take, Nat.min_eq_left safe.between.1]))
          | inr part =>
              exact drained.kept_before _ _ apart timed safe none (early entry part)
                fun unit member same => same ▸ all unit member
        wrote := fun _ => all
        spared := safe.spared
        written := written }

end

end QuantArena.Archive
