import QuantArena.Archiver.Crashes
import QuantArena.Archiver.Finish

/-! Where a process of any run stands: what it has read since it resumed, and the place that
is recorded on disk. -/

set_option autoImplicit false

namespace QuantArena.Archive

open Foundations Contracts Fanout

variable {geometry : Geometry} {writer : ArchiveWriter} {stream : Foundations.Stream Outbound}
  {first last place : Nat} {start : Int} {gone : List FlushUnit} {archiver : Archiver}
  {unit : FlushUnit} {system : System} {count : Nat}

/-! ## Units do not come back -/

/-- No unit that starts before a moment is open or waits to be written. -/
structure Late (lower : Int) (state : ArchiveState) : Prop where
  opened : ∀ entry ∈ state.opened.entries, lower ≤ entry.2.startNs
  ready : ∀ unit ∈ state.ready, lower ≤ unit.startNs

section
variable {lower : Int} {before after state : ArchiveState} {entry : Entry}
  {change : Int × FlushUnit → Int × FlushUnit}

theorem Late.files (late : Late lower before) (files : Files change before after)
    (kept : ∀ entry, (change entry).2.startNs = entry.2.startNs) : Late lower after where
  opened := by
    rw [files.opened]
    intro entry member
    obtain ⟨old, inside, rfl⟩ := List.mem_map.mp member
    exact (late.opened old inside).trans (kept old).ge
  ready := files.ready ▸ late.ready

theorem Late.ensureUnit (late : Late lower state) (reached : lower ≤ start)
    (streamId resumeAfter : StreamId) : Late lower (state.ensureUnit start streamId resumeAfter) := by
  unfold ArchiveState.ensureUnit
  split
  · exact late
  · split
    · exact late
    · refine ⟨fun entry member => ?_, late.ready⟩
      rcases Dict.mem_entries_set.mp member with ⟨rfl, rfl⟩ | ⟨-, old⟩
      · exact reached
      · exact late.opened entry old

theorem Late.sealUnit (late : Late lower state) (start : Int) : Late lower (state.sealUnit start) := by
  unfold ArchiveState.sealUnit
  cases found : state.opened.get? start with
  | none => exact late
  | some unit =>
      refine ⟨fun entry member => late.opened entry (Dict.mem_entries_erase.mp member).1,
        fun other member => ?_⟩
      have own := late.opened _ (Dict.get?_eq_some_iff.mp found)
      dsimp only at member
      split at member
      · exact late.ready other member
      · cases List.mem_append.mp member with
        | inl old => exact late.ready other old
        | inr new => exact List.mem_singleton.mp new ▸ own

theorem Late.sealUnits (late : Late lower state) (starts : List Int) :
    Late lower (starts.foldl ArchiveState.sealUnit state) := by
  induction starts generalizing state with
  | nil => exact late
  | cons start rest ih => exact ih (late.sealUnit start)

theorem Late.sealBefore (late : Late lower state) (cutoff : Int) :
    Late lower (state.sealBefore geometry cutoff) := by
  unfold ArchiveState.sealBefore
  simp only
  split
  · exact late
  · have closed : Late lower (state.forceCloseBars geometry cutoff) :=
      (Late.mk late.opened late.ready : Late lower { state with
        market := (closing cutoff state.market).1 }).files (forceCloseBars_files state cutoff)
        fun _ => rfl
    exact closed.sealUnits _

theorem Late.apply (late : Late lower state) (reached : lower ≤ unitOf geometry entry) :
    Late lower (state.apply geometry entry.1 entry.2) := by
  rw [apply_eq]
  refine Late.sealBefore ?_ _
  have sampled := (Late.mk late.opened late.ready : Late lower { state with
    lastStreamId := entry.1
    recordsApplied := state.recordsApplied + 1 }).files
      (sampleUntil_files geometry _ (secondStart entry.2.timestampNs))
      fun unit => (sampleEntry_rows _ _ unit).1
  have opened := sampled.ensureUnit reached entry.1 state.lastStreamId
  exact (Late.mk opened.opened opened.ready : Late lower { prepared geometry state entry with
    market := (folded state.market entry).1 }).files (collected_files state entry) fun _ => rfl

theorem Late.applyAll (late : Late lower state) {batch : List Entry}
    (reached : ∀ entry ∈ batch, lower ≤ unitOf geometry entry) :
    Late lower (state.applyAll geometry batch) := by
  induction batch generalizing state with
  | nil => exact late
  | cons first rest ih =>
      exact ih (late.apply (reached first List.mem_cons_self)) fun entry member =>
        reached entry (List.mem_cons_of_mem _ member)

end

/-! ## Recorded places -/

/-- A system whose process resumed at `first` and has read to `last`, with `place` recorded. -/
structure Recorded (geometry : Geometry) (stream : Foundations.Stream Outbound)
    (first last place : Nat) (gone : List FlushUnit) (system : System) : Prop where
  stands : Stands geometry stream first last gone system.archiver
  recorded : system.disk.checkpoint.getD .start = stream.position place
  between : first ≤ place ∧ place ≤ last
  /-- A checkpoint that this process recorded lies before a record that it has read. -/
  reaches : first < place → place < last
  cut : ∀ before ∈ segment stream first place, ∀ after ∈ stream.entries.drop place,
    unitOf geometry before < unitOf geometry after

theorem start_recorded (geometry : Geometry) (stream : Foundations.Stream Outbound) :
    Recorded geometry stream 0 0 0 [] (.start geometry) where
  stands := resume_stands (Nat.zero_le _) rfl
  recorded := rfl
  between := ⟨le_rfl, le_rfl⟩
  reaches := fun less => less
  cut := by simp [segment]

/-- A new process, wherever the checkpoint is. -/
theorem resumed_recorded (within : place ≤ stream.entries.length)
    (recorded : system.disk.checkpoint.getD .start = stream.position place)
    (resumed : system.archiver = .resume geometry system.disk) :
    Recorded geometry stream place place place [] system where
  stands := resumed ▸ resume_stands within recorded
  recorded := recorded
  between := ⟨le_rfl, le_rfl⟩
  reaches := fun less => absurd less (lt_irrefl _)
  cut := by simp [segment_self]

/-- The process after it has read and drained. -/
def System.drained (geometry : Geometry) (stream : Foundations.Stream Outbound) (system : System)
    (count : Nat) : Archiver :=
  let read := system.archiver.read geometry (stream.read system.archiver.position count)
  ⟨read.state.drainReady.1, read.position⟩

theorem step_done (system : System) (count : Nat) :
    system.step geometry writer stream (.step count .done) =
      System.writeReady writer { system with archiver := system.drained geometry stream count }
        (system.due geometry stream count) := rfl

theorem writeReady_disk (system : System) (ready : List FlushUnit) :
    (System.writeReady writer system ready).disk = if ready = [] then system.disk
      else { system.disk.placeAll (ready.flatMap writer.writeUnit) with
        checkpoint := some system.archiver.state.checkpoint } := by
  unfold System.writeReady
  split
  · rfl
  · simp only [System.writeUnits, System.nextUnit, List.take_length, List.drop_length,
      List.head?_nil, Option.map_none, Option.getD_none, List.take_nil, List.append_nil]

theorem Recorded.within (recorded : Recorded geometry stream first last place gone system) :
    place ≤ stream.entries.length := recorded.between.2.trans recorded.stands.within

/-- One batch, before anything of it is written. -/
theorem Recorded.read (recorded : Recorded geometry stream first last place gone system)
    (timed : Timed stream.entries) (count : Nat) :
    ∃ further, last ≤ further ∧
      stream.read system.archiver.position count = segment stream last further ∧
      Stands geometry stream first further (gone ++ system.due geometry stream count)
        (system.drained geometry stream count) := recorded.stands.read timed count

theorem Recorded.placed (recorded : Recorded geometry stream first last place gone system)
    (placements : List Placement) :
    (system.disk.placeAll placements).checkpoint.getD .start = stream.position place := by
  rw [(placeAll_kept system.disk placements).2.2, recorded.recorded]

/-- More was read, and nothing recorded. -/
theorem Recorded.further (given : Recorded geometry stream first last place gone system)
    {further : Nat} {more : List FlushUnit} {after : System}
    (stands : Stands geometry stream first further more after.archiver) (onward : last ≤ further)
    (same : after.disk.checkpoint.getD .start = stream.position place) :
    Recorded geometry stream first further place more after where
  stands := stands
  recorded := same
  between := ⟨given.between.1, given.between.2.trans onward⟩
  reaches := fun less => (given.reaches less).trans_le onward
  cut := given.cut

/-- A completed step that seals nothing. -/
theorem Recorded.idle (given : Recorded geometry stream first last place gone system)
    {count further : Nat} (none : system.due geometry stream count = []) (onward : last ≤ further)
    (stands : Stands geometry stream first further (gone ++ system.due geometry stream count)
      (system.drained geometry stream count)) :
    (system.step geometry writer stream (.step count .done)).disk = system.disk ∧
      Recorded geometry stream first further place (gone ++ system.due geometry stream count)
        (system.step geometry writer stream (.step count .done)) := by
  rw [step_done, System.writeReady, if_pos none]
  exact ⟨rfl, given.further stands onward given.recorded⟩

/-- A completed step that seals units: the checkpoint moves to just before the open one. -/
theorem Stands.write (stands : Stands geometry stream first last
      (gone ++ system.due geometry stream count) (system.drained geometry stream count))
    (timed : Timed stream.entries) (some : system.due geometry stream count ≠ []) :
    ∃ moved, Recorded geometry stream first last moved (gone ++ system.due geometry stream count)
        (system.step geometry writer stream (.step count .done)) ∧ moved < last ∧
      (∀ entry ∈ segment stream first moved,
        unitOf geometry entry < openUnit geometry (segment stream first last)) ∧
      ∀ entry ∈ stream.entries.drop moved,
        openUnit geometry (segment stream first last) ≤ unitOf geometry entry := by
  obtain ⟨moved, checkpoint, after, within, early, late⟩ := stands.checkpoint timed (by simp [some])
  refine ⟨moved, ?_, within, early, late⟩
  rw [step_done, System.writeReady, if_neg some]
  exact ⟨stands, checkpoint, ⟨after.le, within.le⟩, fun _ => within,
    fun before inside other beyond => (early before inside).trans_le (late other beyond)⟩

/-! ## Stops -/

theorem Stands.finish_checkpoint (stands : Stands geometry stream first last gone archiver)
    (timed : Timed stream.entries) (some : segment stream first last ≠ []) :
    (archiver.state.finish geometry).drainReady.1.checkpoint = stream.position last := by
  obtain ⟨sealed, finished⟩ := stands.described.finish (segment_timed timed first last) some
  have none : (archiver.state.finish geometry).drainReady.1.opened.keys.min? = none := by
    show (archiver.state.finish geometry).opened.keys.min? = none
    rw [Dict.keys, finished.opened]
    rfl
  rw [ArchiveState.checkpoint, none, position_segment stands.ordered stands.within,
    ← reached_of_ne_nil some .start]
  exact finished.lastStreamId.trans stands.described.lastStreamId

/-- What a stop has to write. -/
def System.rest (geometry : Geometry) (system : System) : List FlushUnit :=
  ((system.archiver.state.finish geometry).drainReady).2

theorem Stands.rest_nil (stands : Stands geometry stream first last gone system.archiver)
    (none : segment stream first last = []) : system.rest geometry = [] := by
  rw [System.rest, finish_nothing (none ▸ stands.described), ArchiveState.drainReady, stands.drained]
  rfl

theorem stop_disk (system : System) :
    (system.step geometry writer stream .stop).disk = if system.rest geometry = [] then system.disk
      else { system.disk.placeAll ((system.rest geometry).flatMap writer.writeUnit) with
        checkpoint := some ((system.archiver.state.finish geometry).drainReady).1.checkpoint } :=
  writeReady_disk _ _

theorem Recorded.stop_idle (given : Recorded geometry stream first last place gone system)
    (none : system.rest geometry = []) :
    Recorded geometry stream place place place [] (system.step geometry writer stream .stop) := by
  refine resumed_recorded given.within ?_ rfl
  rw [stop_disk, if_pos none]
  exact given.recorded

theorem Recorded.stop_write (given : Recorded geometry stream first last place gone system)
    (timed : Timed stream.entries) (some : system.rest geometry ≠ []) :
    Recorded geometry stream last last last [] (system.step geometry writer stream .stop) := by
  refine resumed_recorded given.stands.within ?_ rfl
  rw [stop_disk, if_neg some]
  exact given.stands.finish_checkpoint timed (mt given.stands.rest_nil some)

/-! ## What a batch seals -/

/-- A unit that a batch seals does not start before what was open. -/
theorem Stands.due_late (stands : Stands geometry stream first last gone system.archiver)
    (timed : Timed stream.entries) {count : Nat} (due : unit ∈ system.due geometry stream count)
    (filled : segment stream first last ≠ []) :
    openUnit geometry (segment stream first last) ≤ unit.startNs := by
  have late : Late (openUnit geometry (segment stream first last)) system.archiver.state := by
    refine ⟨?_, by simp [stands.drained]⟩
    rcases stands.described.opened with ⟨none, -⟩ | ⟨open_, -, opened, filling⟩
    · exact absurd none filled
    · simp [opened, filling.startNs]
  have after := @Late.applyAll geometry _ _ late
    (stream.read system.archiver.position count) fun entry member => by
      rw [stands.position, Stream.read_position] at member
      exact openUnit_le_rest timed filled (List.mem_of_mem_take member)
  exact after.ready unit ((List.mem_insertionSort _).mp due)

/-- Of a unit that a process seals, nothing lies before the place it had recorded. -/
theorem Recorded.before_due (given : Recorded geometry stream first last place gone system)
    (timed : Timed stream.entries) {count : Nat} (due : unit ∈ system.due geometry stream count) :
    ∀ before ∈ segment stream first place, unitOf geometry before < unit.startNs := by
  intro before member
  obtain ⟨newest, inside⟩ := exists_mem_segment (given.reaches (lt_of_mem_segment member))
    given.stands.within
  have beyond := mem_segment_drop inside
  have whole := mem_segment_later given.between.1 inside
  have early := @Timed.le_openUnit geometry _ (segment_timed timed first last) newest whole
  exact (given.cut before member newest beyond).trans_le
    (early.trans (given.stands.due_late timed due (List.ne_nil_of_mem whole)))

end QuantArena.Archive
