import QuantArena.Archiver.Places
import QuantArena.Archiver.Samples

/-! A unit that is written, and not recorded before the process dies, is written again by the
next process: what its files then are, against what they were. -/

set_option autoImplicit false

namespace QuantArena.Archive

open Foundations Contracts Fanout

variable (geometry : Geometry) (writer : ArchiveWriter) (stream : Foundations.Stream Outbound)

/-! ## The processes of a run -/

/-- Whether a new process follows. -/
def Action.restarts : Action → Bool
  | .step _ (.crashed _ _) => true
  | .step _ _ => false
  | .stop => true

/-- A system, and where its process resumed. -/
def System.follow (held : System × StreamId) (action : Action) : System × StreamId :=
  let next := held.1.step geometry writer stream action
  (next, if action.restarts then next.archiver.position else held.2)

/-- Where the process that a run ends with had resumed. -/
def System.resumedAt (actions : List Action) : StreamId :=
  (actions.foldl (System.follow geometry writer stream) (.start geometry, .start)).2

/-- The units that a step writes whole. -/
def Outcome.writes (ready : List FlushUnit) : Outcome → List FlushUnit
  | .done => ready
  | .raised units _ => ready.take units
  | .crashed units _ => ready.take units

/-- A process over some reads, with the units it seals. -/
def Archiver.readAll (archiver : Archiver) (counts : List Nat) : Archiver × List FlushUnit :=
  counts.foldl (fun held count =>
      let read := held.1.read geometry (stream.read held.1.position count)
      (⟨read.state.drainReady.1, read.position⟩, held.2 ++ read.state.drainReady.2))
    (archiver, [])

/-- The files of one unit, as they are written. -/
def filesOf (units : List FlushUnit) (start : Int) : List Placement :=
  (units.filter fun unit => unit.startNs = start).flatMap writer.writeUnit

/-- The entries after a place. -/
def since (place : StreamId) : List Entry := stream.entries.filter fun entry => place < entry.1

/-- For every second of the unit, the books as one part of the stream tells them show the same
levels as they do by another. -/
def SameLevels (start : Int) (left right : List Entry) : Prop :=
  ∀ second ∈ geometry.seconds start, ∀ symbolId, ∀ side ∈ sides,
    ((told geometry (basis start second left)).book symbolId).levels side geometry.bookDepth =
      ((told geometry (basis start second right)).book symbolId).levels side geometry.bookDepth

variable {geometry writer stream} {start second symbolId side : Int} {first last place : Nat}
  {gone ready : List FlushUnit} {archiver : Archiver} {left right unit : FlushUnit}
  {entries : List Entry}

/-! ## Files -/

theorem parts_congr {ρ : Type} {symbolOf : ρ → Int} {rows others : List ρ}
    (same : ∀ symbolId, rows.filter (fun row => symbolOf row = symbolId) =
      others.filter fun row => symbolOf row = symbolId) :
    ArchiveWriter.parts symbolOf rows = ArchiveWriter.parts symbolOf others := by
  have members : ∀ symbolId, symbolId ∈ rows.map symbolOf ↔ symbolId ∈ others.map symbolOf := by
    have listed : ∀ (items : List ρ) symbolId, symbolId ∈ items.map symbolOf ↔
        items.filter (fun row => symbolOf row = symbolId) ≠ [] := fun items symbolId => by
      simp [List.filter_eq_nil_iff]
    exact fun symbolId => by rw [listed, listed, same]
  have perm : (rows.map symbolOf).dedup.Perm (others.map symbolOf).dedup :=
    (List.perm_ext_iff_of_nodup (List.nodup_dedup _) (List.nodup_dedup _)).mpr fun symbolId => by
      rw [List.mem_dedup, List.mem_dedup, members]
  have sorted : (rows.map symbolOf).dedup.insertionSort (· ≤ ·) =
      (others.map symbolOf).dedup.insertionSort (· ≤ ·) :=
    (((List.perm_insertionSort _ _).trans perm).trans (List.perm_insertionSort _ _).symm).eq_of_pairwise
      (fun _ _ _ _ below above => le_antisymm below above) (List.pairwise_insertionSort _ _)
      (List.pairwise_insertionSort _ _)
  simp only [ArchiveWriter.parts, sorted, same]

/-- The snapshots files of a unit: one for every symbol that shows in it. -/
theorem snapshots_written {path : Path} {rows : List SnapshotRow} :
    .snapshots path rows ∈ writer.writeUnit unit ↔
      ∃ symbolId, path = writer.pathFor symbolId unit.startNs ∧
        rows = unit.rows.snapshots.filter (fun row => row.symbolId = symbolId) ∧ rows ≠ [] := by
  simp only [ArchiveWriter.writeUnit, List.mem_append, List.mem_map, reduceCtorEq, and_false,
    exists_false, false_or, Placement.snapshots.injEq, Prod.exists, mem_parts]
  constructor
  · rintro ⟨symbolId, part, ⟨rfl, some⟩, rfl, rfl⟩
    exact ⟨symbolId, rfl, rfl, some⟩
  · rintro ⟨symbolId, rfl, rfl, some⟩
    exact ⟨symbolId, _, ⟨rfl, some⟩, rfl, rfl⟩

theorem snapshots_le_of_written
    (same : ∀ placement ∈ writer.writeUnit left, placement ∈ writer.writeUnit right)
    (some : left.rows.snapshots.filter (fun row => row.symbolId = symbolId) ≠ []) :
    left.rows.snapshots.filter (fun row => row.symbolId = symbolId) =
      right.rows.snapshots.filter fun row => row.symbolId = symbolId := by
  have placed := same _ (snapshots_written.mpr ⟨symbolId, rfl, rfl, some⟩)
  obtain ⟨other, -, rows, -⟩ := snapshots_written.mp placed
  obtain ⟨row, member⟩ := List.exists_mem_of_ne_nil _ some
  have own : row.symbolId = symbolId := of_decide_eq_true (List.mem_filter.mp member).2
  have moved : row ∈ right.rows.snapshots.filter (fun row => row.symbolId = other) := rows ▸ member
  have alike : row.symbolId = other := of_decide_eq_true (List.mem_filter.mp moved).2
  rw [rows, ← alike, own]

/-- Two units with the same prints and bars have the same files where their samples of every
symbol are the same. -/
theorem writeUnit_eq_iff (starts : left.startNs = right.startNs)
    (trades : left.rows.trades = right.rows.trades)
    (bars : ∀ symbolId, left.rows.bars.filter (fun bar => bar.symbolId = symbolId) =
      right.rows.bars.filter fun bar => bar.symbolId = symbolId) :
    writer.writeUnit left = writer.writeUnit right ↔ ∀ symbolId,
      left.rows.snapshots.filter (fun row => row.symbolId = symbolId) =
        right.rows.snapshots.filter fun row => row.symbolId = symbolId := by
  constructor
  · intro same symbolId
    have onward := @snapshots_le_of_written writer symbolId left right fun _ => (same ▸ ·)
    have back := @snapshots_le_of_written writer symbolId right left fun _ => (same ▸ ·)
    by_cases none : left.rows.snapshots.filter (fun row => row.symbolId = symbolId) = []
    · by_contra differ
      exact differ (back fun empty => differ (none.trans empty.symm)).symm
    · exact onward none
  · intro same
    simp only [ArchiveWriter.writeUnit, starts, trades, parts_congr bars, parts_congr same]

/-! ## Samples by symbol -/

theorem symbolRows_unitSamples (start symbolId : Int) (entries : List Entry) :
    (unitSamples geometry start entries).filter (fun row => row.symbolId = symbolId) =
      (geometry.seconds start).flatMap fun second => sides.flatMap
        (levelRows geometry (told geometry (basis start second entries)) second symbolId) := by
  rw [unitSamples, List.filter_flatMap]
  refine List.flatMap_congr fun second _ => ?_
  have own : ∀ symbol, (sides.flatMap (levelRows geometry
      (told geometry (basis start second entries)) second symbol)).filter
        (fun row => row.symbolId = symbolId) = if symbol = symbolId then
      sides.flatMap (levelRows geometry (told geometry (basis start second entries)) second symbol)
        else [] := fun symbol => by
    split
    · rename_i same
      refine List.filter_eq_self.mpr fun row member => ?_
      obtain ⟨side, -, level⟩ := List.mem_flatMap.mp member
      simpa [same] using (mem_levelRows level).2.1
    · rename_i apart
      refine List.filter_eq_nil_iff.mpr fun row member => ?_
      obtain ⟨side, -, level⟩ := List.mem_flatMap.mp member
      simpa [(mem_levelRows level).2.1] using apart
  rw [secondSamples, snapshotRows_eq, List.filter_flatMap]
  simp only [own]
  by_cases listed : symbolId ∈ (told geometry (basis start second entries)).symbols
  · exact (flatMap_of_only (symbols_nodup _) listed fun other _ apart => if_neg apart).trans
      (if_pos rfl)
  · have none : sides.flatMap (levelRows geometry (told geometry (basis start second entries))
        second symbolId) = [] :=
      List.flatMap_eq_nil_iff.mpr fun side _ => levelRows_of_absent listed
    rw [none]
    refine List.flatMap_eq_nil_iff.mpr fun other member => if_neg fun same => ?_
    exact listed (same ▸ member)

/-- Two parts of the stream sample a unit alike, symbol by symbol, where they show the same levels. -/
theorem unitSamples_eq_iff {more : List Entry} :
    (∀ symbolId, (unitSamples geometry start entries).filter (fun row => row.symbolId = symbolId) =
        (unitSamples geometry start more).filter fun row => row.symbolId = symbolId) ↔
      SameLevels geometry start entries more := by
  constructor
  · intro same second inside symbolId side own
    have rows : rowsAt (unitSamples geometry start entries) second symbolId side =
        rowsAt (unitSamples geometry start more) second symbolId side := by
      have split : ∀ rows : List SnapshotRow, rowsAt rows second symbolId side =
          (rows.filter fun row => row.symbolId = symbolId).filter
            fun row => row.secondNs = second ∧ row.side = side := fun rows => by
        rw [rowsAt, List.filter_filter]
        refine List.filter_congr fun row _ => ?_
        by_cases atSecond : row.secondNs = second <;> by_cases ofSymbol : row.symbolId = symbolId <;>
          simp [atSecond, ofSymbol]
      rw [split, same, split]
    rw [rowsAt_unitSamples inside own, rowsAt_unitSamples inside own] at rows
    exact levelRows_inj.mp rows
  · intro same symbolId
    rw [symbolRows_unitSamples, symbolRows_unitSamples]
    exact List.flatMap_congr fun second inside => List.flatMap_congr fun side own =>
      levelRows_inj.mpr (same second inside symbolId side own)

/-! ## Processes -/

/-- Away from the open unit, the part that was read says of a unit all that comes after its start. -/
theorem Stands.unit_rest (stands : Stands geometry stream first last gone archiver)
    (timed : Timed stream.entries) (own : ∃ entry ∈ segment stream first last, unitOf geometry entry = start)
    (before : start < openUnit geometry (segment stream first last)) :
    unitPrints geometry start (segment stream first last) =
        unitPrints geometry start (stream.entries.drop first) ∧
      unitSamples geometry start (segment stream first last) =
        unitSamples geometry start (stream.entries.drop first) := by
  obtain ⟨entry, inside, rfl⟩ := own
  have filled := List.ne_nil_of_mem inside
  have later : ∀ other ∈ stream.entries.drop last,
      openUnit geometry (segment stream first last) ≤ unitOf geometry other :=
    fun other member => openUnit_le_rest timed filled member
  rw [← drop_segment stream stands.ordered stands.within]
  constructor
  · rw [unitPrints_append, unitPrints_of_ne (fun other member => (before.trans_le
      (later other member)).ne'), List.append_nil]
  · refine (unitSamples_append (countBefore_lt inside (geometry.unitStart_le _))
      fun other member => ?_).symm
    exact (geometry.ends_before (before.trans_le (later other member))).trans
      (geometry.unitStart_le _)

/-- The files of a past unit, as they come from the prints and the samples of the rest. -/
theorem Stands.files (stands : Stands geometry stream first last gone archiver)
    (own : ∃ entry ∈ segment stream first last, unitOf geometry entry = start)
    (before : start < openUnit geometry (segment stream first last)) :
    ∃ unit, filesOf writer gone start = writer.writeUnit unit ∧ unit.startNs = start ∧
      Whole geometry (segment stream first last) unit ∧
      unit.rows.snapshots = unitSamples geometry start (segment stream first last) := by
  have described := stands.described
  have units : gone ++ archiver.state.ready = gone := by rw [stands.drained, List.append_nil]
  obtain ⟨entry, inside, rfl⟩ := own
  by_cases found : ∃ unit ∈ gone, unit.startNs = unitOf geometry entry
  · obtain ⟨unit, member, same⟩ := found
    have ascending := units ▸ described.ascending
    refine ⟨unit, ?_, same, described.whole unit (units.symm ▸ member), ?_⟩
    · rw [filesOf, ← same, filter_startNs ascending member, List.flatMap_singleton]
    · rw [described.samples unit (units.symm ▸ member), same]
  · have empty := described.complete entry inside before
    rw [units] at empty
    obtain ⟨prints, samples⟩ := empty.resolve_left found
    have none : (gone.filter fun unit => unit.startNs = unitOf geometry entry) = [] :=
      List.filter_eq_nil_iff.mpr fun unit member => by
        simpa using fun same => found ⟨unit, member, same⟩
    refine ⟨.opened (unitOf geometry entry) .start .start, ?_, rfl, ⟨prints.symm, fun symbolId => ?_⟩,
      samples.symm⟩
    · rw [filesOf, none]
      rfl
    · rw [symbolBars, symbolPrints]
      show [] = barsOf geometry.barWidths symbolId
        ((unitPrints geometry (unitOf geometry entry) _).filter _)
      rw [prints]
      exact (currents_new symbolId geometry.barWidths).symm

/-! ## Runs -/

/-- A system, with the place where its process resumed. -/
structure Traced (geometry : Geometry) (stream : Foundations.Stream Outbound)
    (first last place : Nat) (gone : List FlushUnit) (held : System × StreamId) : Prop where
  recorded : Recorded geometry stream first last place gone held.1
  origin : held.2 = stream.position first

variable {held : System × StreamId}

/-- A step after which another process goes on. -/
theorem Traced.restart {action : Action} (restarts : action.restarts = true)
    (recorded : Recorded geometry stream place place place []
      (held.1.step geometry writer stream action)) :
    Traced geometry stream place place place [] (System.follow geometry writer stream held action) where
  recorded := recorded
  origin := by
    rw [System.follow, restarts]
    exact recorded.stands.position

theorem Traced.follow (timed : Timed stream.entries)
    (traced : Traced geometry stream first last place gone held) (action : Action) :
    ∃ first last place gone, Traced geometry stream first last place gone
      (System.follow geometry writer stream held action) := by
  have recorded := traced.recorded
  cases action with
  | step count outcome =>
      obtain ⟨further, onward, -, stands⟩ := recorded.read timed count
      cases outcome with
      | done =>
          by_cases none : held.1.due geometry stream count = []
          · exact ⟨_, _, _, _, (recorded.idle none onward stands).2, traced.origin⟩
          · obtain ⟨moved, next, -⟩ := stands.write timed none
            exact ⟨_, _, _, _, next, traced.origin⟩
      | raised units files =>
          exact ⟨first, further, place, gone ++ held.1.due geometry stream count,
            recorded.further stands onward (recorded.placed _), traced.origin⟩
      | crashed units files =>
          exact ⟨place, place, place, [], Traced.restart rfl
            (resumed_recorded recorded.within (recorded.placed _) rfl)⟩
  | stop =>
      by_cases none : held.1.rest geometry = []
      · exact ⟨_, _, _, _, Traced.restart rfl (recorded.stop_idle none)⟩
      · exact ⟨_, _, _, _, Traced.restart rfl (recorded.stop_write timed none)⟩

theorem traced_run (timed : Timed stream.entries) (actions : List Action) :
    ∃ first last place gone, Traced geometry stream first last place gone
      (actions.foldl (System.follow geometry writer stream) (.start geometry, .start)) := by
  induction actions using List.reverseRecOn with
  | nil => exact ⟨0, 0, 0, [], start_recorded geometry stream, rfl⟩
  | append_singleton before action ih =>
      obtain ⟨first, last, place, gone, traced⟩ := ih
      rw [List.foldl_append]
      exact traced.follow timed action

theorem follow_run (actions : List Action) (held : System × StreamId) :
    (actions.foldl (System.follow geometry writer stream) held).1 =
      System.run geometry writer stream held.1 actions := by
  induction actions generalizing held with
  | nil => rfl
  | cons action rest ih => exact ih (System.follow geometry writer stream held action)

/-! ## The unit written again -/

theorem readAll_stands (stands : Stands geometry stream first last gone archiver)
    (timed : Timed stream.entries) (counts : List Nat) :
    ∃ further, Stands geometry stream first further
      (gone ++ (archiver.readAll geometry stream counts).2)
      (archiver.readAll geometry stream counts).1 := by
  induction counts using List.reverseRecOn with
  | nil => exact ⟨last, by simpa [Archiver.readAll] using stands⟩
  | append_singleton before count ih =>
      obtain ⟨reached, given⟩ := ih
      obtain ⟨further, -, -, next⟩ := given.read timed count
      rw [Archiver.readAll, List.foldl_append, List.append_assoc] at *
      exact ⟨further, next⟩

theorem mem_of_writes {outcome : Outcome} (wrote : unit ∈ outcome.writes ready) : unit ∈ ready := by
  cases outcome with
  | done => exact wrote
  | raised units files => exact List.mem_of_mem_take wrote
  | crashed units files => exact List.mem_of_mem_take wrote

theorem Traced.rederived (traced : Traced geometry stream first last place gone held)
    (timed : Timed stream.entries) {count : Nat} (due : unit ∈ held.1.due geometry stream count)
    {disk : Disk} (recorded : disk.checkpoint = held.1.disk.checkpoint) {counts : List Nat}
    (sealed : ∃ through ∈ ((Archiver.resume geometry disk).readAll geometry stream
      counts).1.state.sealedThrough, unit.startNs ≤ through) :
    filesOf writer ((Archiver.resume geometry disk).readAll geometry stream counts).2 unit.startNs =
        writer.writeUnit unit ↔
      SameLevels geometry unit.startNs (since stream (held.1.disk.checkpoint.getD .start))
        (since stream held.2) := by
  -- the process that wrote the unit
  have given := traced.recorded
  obtain ⟨further, -, -, stands⟩ := given.read timed count
  have member : unit ∈ (gone ++ held.1.due geometry stream count) := List.mem_append_right _ due
  have listed := List.mem_append_left ([] : List FlushUnit) member
  obtain ⟨before, entry, inside, own⟩ := stands.described.earlier unit listed
  have whole := stands.described.whole unit listed
  have samples := stands.described.samples unit listed
  obtain ⟨prints, rest⟩ := stands.unit_rest timed ⟨entry, inside, own⟩ before
  -- the process that resumes
  have resumed := @resume_stands geometry stream disk place given.within (recorded ▸ given.recorded)
  obtain ⟨again, restands⟩ := readAll_stands resumed timed counts
  rw [List.nil_append] at restands
  obtain ⟨through, found, reached⟩ := sealed
  have past := reached.trans_lt (restands.described.through through found).2
  -- both read all that comes of the unit
  have early := given.before_due timed due
  have halves := drop_segment stream given.between.1 given.within
  have later : entry ∈ stream.entries.drop place := by
    have after := mem_segment_drop inside
    rw [← halves] at after
    exact (List.mem_append.mp after).resolve_left fun old => (early entry old).ne own
  have reread : entry ∈ segment stream place again := by
    rw [← drop_segment stream restands.ordered restands.within] at later
    refine (List.mem_append.mp later).resolve_right fun beyond => ?_
    have filled := (restands.described.through through found).1
    have reached := @openUnit_le_rest geometry stream place again timed entry filled beyond
    exact absurd (own ▸ past) (not_lt.mpr reached)
  obtain ⟨other, files, start, otherWhole, otherSamples⟩ :=
    @Stands.files geometry writer stream _ _ _ _ _ restands ⟨entry, reread, own⟩ past
  obtain ⟨otherPrints, otherRest⟩ := restands.unit_rest timed ⟨entry, reread, own⟩ past
  have none : ∀ before ∈ segment stream first place, unitOf geometry before ≠ unit.startNs :=
    fun before member => (early before member).ne
  have same : unitPrints geometry unit.startNs (segment stream place again) =
      unitPrints geometry unit.startNs (segment stream first further) := by
    rw [otherPrints, prints, ← halves, unitPrints_append, unitPrints_of_ne none, List.nil_append]
  have trades : other.rows.trades = unit.rows.trades := by
    rw [otherWhole.trades, whole.trades, start, same]
  have bars : ∀ symbolId, other.rows.bars.filter (fun bar => bar.symbolId = symbolId) =
      unit.rows.bars.filter fun bar => bar.symbolId = symbolId := fun symbolId => by
    rw [otherWhole.bars, whole.bars, start, symbolBars, symbolBars, symbolPrints, symbolPrints, same]
  rw [files, writeUnit_eq_iff start trades bars, otherSamples, samples, otherRest, rest,
    unitSamples_eq_iff, given.recorded, traced.origin, since, since, stream.filter_position_lt,
    stream.filter_position_lt]

/-- Once the next process has sealed a unit that was written and not recorded, its files are the
same as before exactly if the records between the two processes' places show at no sampled second. -/
theorem rewrites_identical_iff (timed : Timed stream.entries) {actions later : List Action}
    {count : Nat} {outcome : Outcome} {counts : List Nat}
    (wrote : unit ∈ outcome.writes
      ((System.run geometry writer stream (.start geometry) actions).due geometry stream count))
    (unrecorded : (System.run geometry writer stream (.start geometry)
        (actions ++ .step count outcome :: later)).disk.checkpoint =
      (System.run geometry writer stream (.start geometry) actions).disk.checkpoint)
    (sealed : ∃ through ∈ ((Archiver.resume geometry (System.run geometry writer stream
        (.start geometry) (actions ++ .step count outcome :: later)).disk).readAll geometry stream
          counts).1.state.sealedThrough, unit.startNs ≤ through) :
    filesOf writer ((Archiver.resume geometry (System.run geometry writer stream
        (.start geometry) (actions ++ .step count outcome :: later)).disk).readAll geometry stream
          counts).2 unit.startNs = writer.writeUnit unit ↔
      SameLevels geometry unit.startNs
        (since stream ((System.run geometry writer stream (.start geometry)
          actions).disk.checkpoint.getD .start))
        (since stream (System.resumedAt geometry writer stream actions)) := by
  obtain ⟨first, last, place, gone, traced⟩ := @traced_run geometry writer stream timed actions
  have run := @follow_run geometry writer stream actions (.start geometry, .start)
  rw [← run] at wrote unrecorded ⊢
  exact traced.rederived timed (mem_of_writes wrote) unrecorded sealed

/-- A bid, and fills of orders that no book has, each in a unit of its own. -/
def bidStays : Foundations.Stream Outbound :=
  Foundations.Stream.empty.appendAll 1 [(bidAt 0).2, (printAt 2).2, (printAt 4).2]

/-- The first unit is recorded, and the process dies when it has written the second. -/
def beforeCrash : System := System.run pairs oneListed bidStays (.start pairs) [.step 2 .done]

def afterCrash : System :=
  System.run pairs oneListed bidStays (.start pairs) [.step 2 .done, .step 1 (.crashed 1 0)]

def rewritten : Archiver × List FlushUnit :=
  (Archiver.resume pairs afterCrash.disk).readAll pairs bidStays [2]

theorem due_sealed : ∀ unit ∈ Outcome.writes (beforeCrash.due pairs bidStays 1) (.crashed 1 0),
    ∃ through ∈ rewritten.1.state.sealedThrough, unit.startNs ≤ through := by decide +kernel

theorem rewrites_identical_iff_pairs :
    ∃ unit ∈ Outcome.writes (beforeCrash.due pairs bidStays 1) (.crashed 1 0),
      (filesOf oneListed rewritten.2 unit.startNs = oneListed.writeUnit unit ↔
        SameLevels pairs unit.startNs (since bidStays (beforeCrash.disk.checkpoint.getD .start))
          (since bidStays (System.resumedAt pairs oneListed bidStays [.step 2 .done]))) := by
  obtain ⟨unit, wrote⟩ : ∃ unit, unit ∈ Outcome.writes (beforeCrash.due pairs bidStays 1)
      (.crashed 1 0) := List.exists_mem_of_length_pos (by decide +kernel)
  exact ⟨unit, wrote, @rewrites_identical_iff pairs oneListed bidStays unit (by decide +kernel)
    [.step 2 .done] [] 1 (.crashed 1 0) [2] wrote (by decide +kernel) (due_sealed unit wrote)⟩

/-- The bid rests in the samples of the process that died, and not in those of the next. -/
theorem rewrite_loses_bid :
    Timed bidStays.entries ∧ afterCrash.disk.checkpoint = beforeCrash.disk.checkpoint ∧
      ∃ unit ∈ Outcome.writes (beforeCrash.due pairs bidStays 1) (.crashed 1 0),
        (∃ through ∈ rewritten.1.state.sealedThrough, unit.startNs ≤ through) ∧
          filesOf oneListed rewritten.2 unit.startNs ≠ oneListed.writeUnit unit := by
  obtain ⟨unit, wrote⟩ : ∃ unit, unit ∈ Outcome.writes (beforeCrash.due pairs bidStays 1)
      (.crashed 1 0) := List.exists_mem_of_length_pos (by decide +kernel)
  have fewer : ∀ unit ∈ Outcome.writes (beforeCrash.due pairs bidStays 1) (.crashed 1 0),
      (filesOf oneListed rewritten.2 unit.startNs).length ≠ (oneListed.writeUnit unit).length := by
    decide +kernel
  exact ⟨by decide +kernel, by decide +kernel, unit, wrote, due_sealed unit wrote,
    fun same => fewer unit wrote (congrArg List.length same)⟩

end QuantArena.Archive
