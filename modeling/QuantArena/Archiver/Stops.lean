import QuantArena.Archiver.Places

/-! Graceful stops: the unit that is open is written as far as it goes, and the next process
begins it again. -/

set_option autoImplicit false

namespace QuantArena.Archive

open Foundations Contracts Fanout

variable (geometry : Geometry) (writer : ArchiveWriter) (stream : Foundations.Stream Outbound)

/-- What a run of completed steps and graceful stops needs of a step: of no print that it reads is
the file of the symbol and the unit there already. -/
def System.Untouched (system : System) : Action → Prop
  | .step count .done => ∀ entry ∈ stream.read system.archiver.position count,
      ∀ trade ∈ printOf entry,
        system.disk.trades.get? (writer.pathFor trade.symbolId (unitOf geometry entry)) = none
  | .step _ _ => False
  | .stop => True

instance (system : System) : (action : Action) →
    Decidable (system.Untouched geometry writer stream action)
  | .step _ .done => List.decidableBAll ..
  | .step _ (.raised _ _) => .isFalse id
  | .step _ (.crashed _ _) => .isFalse id
  | .stop => .isTrue trivial

/-- Every fill that was applied before the last stop is in one row. -/
def StopsKeep (system : System) : Prop :=
  ∀ entry ∈ stream.entries, entry.1 ≤ system.stoppedAt → ∀ trade, printOf entry = some trade →
    ∃! place, system.disk.rowAt place = some trade

/-- The trades files hold the prints before a place, and no others. -/
structure FiledTo (place : Nat) (disk : Disk) : Prop where
  filed : ∀ entry ∈ stream.entries.take place, ∀ trade, printOf entry = some trade →
    disk.trades.get? (writer.pathFor trade.symbolId (unitOf geometry entry)) ≠ none
  held : ∀ path rows, disk.trades.get? path = some rows →
    ∃ entry ∈ stream.entries, ∃ symbolId ∈ tradedSymbols stream,
      path = writer.pathFor symbolId (unitOf geometry entry) ∧
        rows = symbolPrints geometry symbolId (unitOf geometry entry) (stream.entries.take place)

/-- No print between two places has a file of its symbol and its unit. -/
def Unfiled (first last : Nat) (disk : Disk) : Prop :=
  ∀ entry ∈ segment stream first last, ∀ trade, printOf entry = some trade →
    disk.trades.get? (writer.pathFor trade.symbolId (unitOf geometry entry)) = none

variable {geometry writer stream} {first last place moved further : Nat} {disk : Disk}
  {gone ready : List FlushUnit} {entry : Entry} {trade : Trade} {symbolId start : Int}
  {system : System}

theorem traded_of_print (member : entry ∈ stream.entries) (printed : printOf entry = some trade) :
    trade.symbolId ∈ tradedSymbols stream :=
  List.mem_map.mpr ⟨trade, List.mem_filterMap.mpr ⟨entry, member, printed⟩, rfl⟩

theorem mem_of_take {count : Nat} (member : entry ∈ stream.entries.take count) :
    entry ∈ stream.entries := List.mem_of_mem_take member

theorem FiledTo.unique (given : FiledTo geometry writer stream place disk)
    (apart : NamesApart writer stream) (member : entry ∈ stream.entries.take place)
    (printed : printOf entry = some trade) : ∃! row, disk.rowAt row = some trade := by
  have filed : Filed geometry writer disk := by
    intro path rows found
    obtain ⟨other, -, symbolId, -, rfl, rfl⟩ := given.held path rows found
    refine ⟨symbolPrints_nodup (stream.ascending.sublist (List.take_sublist _ _)),
      fun trade member => ?_⟩
    obtain ⟨another, -, printed, unit, rfl⟩ := mem_symbolPrints.mp member
    rw [printOf_timestampNs printed, ← unit, unitOf]
  obtain ⟨rows, found⟩ := Option.ne_none_iff_exists'.mp (given.filed entry member trade printed)
  obtain ⟨other, -, symbolId, traded, path, same⟩ := given.held _ rows found
  obtain ⟨symbol, unit⟩ := place_inj apart (traded_of_print (mem_of_take member) printed) traded path
  have inside : trade ∈ rows := by
    rw [same]
    exact mem_symbolPrints.mpr ⟨entry, member, printed, unit, symbol⟩
  refine filed.unique inside ?_
  rw [printOf_timestampNs printed]
  exact found

/-! ## Writing -/

/-- No file goes away. -/
theorem placed_present {placements : List Placement} {path : Path}
    (there : disk.trades.get? path ≠ none ∨ ∃ rows, .trades path rows ∈ placements) :
    (disk.placeAll placements).trades.get? path ≠ none := by
  induction placements generalizing disk with
  | nil => exact there.resolve_right fun placed => by simp at placed
  | cons first rest ih =>
      refine @ih (disk.place first) ?_
      rcases there with old | ⟨rows, member⟩
      · refine .inl ?_
        cases first with
        | trades other rows =>
            simp only [Disk.place, Dict.get?_set]
            split
            · exact Option.some_ne_none _
            · exact old
        | _ => exact old
      · cases member with
        | head => exact .inl (by simp [Disk.place])
        | tail _ inside => exact .inr ⟨rows, inside⟩

/-- What is to be written once a part of the stream was read. -/
structure Due (geometry : Geometry) (writer : ArchiveWriter) (stream : Foundations.Stream Outbound)
    (first place moved further : Nat) (ready : List FlushUnit) (disk : Disk) : Prop where
  ordered : first ≤ place ∧ place ≤ moved ∧ moved ≤ further
  whole : ∀ unit ∈ ready, Whole geometry (segment stream first further) unit
  origin : ∀ unit ∈ ready, ∃ entry ∈ stream.entries, unitOf geometry entry = unit.startNs
  early : ∀ unit ∈ ready, ∀ before ∈ segment stream first place,
    unitOf geometry before ≠ unit.startNs
  late : ∀ unit ∈ ready, ∀ after ∈ segment stream moved further,
    unitOf geometry after ≠ unit.startNs
  complete : ∀ entry ∈ segment stream place moved, (printOf entry).isSome →
    ∃ unit ∈ ready, unit.startNs = unitOf geometry entry
  filed : FiledTo geometry writer stream place disk
  unfiled : Unfiled geometry writer stream place further disk

section
variable (due : Due geometry writer stream first place moved further ready disk)
include due

/-- The rows of a unit are the prints up to the new place: none of them was written before. -/
theorem Due.rows {unit : FlushUnit} (member : unit ∈ ready)
    (some : symbolPrints geometry symbolId unit.startNs (segment stream first further) ≠ []) :
    symbolPrints geometry symbolId unit.startNs (segment stream first further) =
      symbolPrints geometry symbolId unit.startNs (stream.entries.take moved) := by
  obtain ⟨low, middle, high⟩ := due.ordered
  have own : symbolPrints geometry symbolId unit.startNs (segment stream first further) =
      symbolPrints geometry symbolId unit.startNs (segment stream place moved) := by
    rw [← segment_append (low.trans middle) high, ← segment_append low middle, symbolPrints_append,
      symbolPrints_append, symbolPrints_of_ne (due.early unit member),
      symbolPrints_of_ne (due.late unit member), List.nil_append, List.append_nil]
  have before : symbolPrints geometry symbolId unit.startNs (stream.entries.take place) = [] := by
    by_contra filled
    obtain ⟨old, oldPrint⟩ := List.exists_mem_of_ne_nil _ filled
    obtain ⟨first, oldMember, printed, unit, symbol⟩ := mem_symbolPrints.mp oldPrint
    obtain ⟨new, newPrint⟩ := List.exists_mem_of_ne_nil _ (own ▸ some)
    obtain ⟨second, newMember, printed', unit', symbol'⟩ := mem_symbolPrints.mp newPrint
    have there := due.filed.filed first oldMember old printed
    have inside : second ∈ segment stream place further := by
      rw [← segment_append middle high]
      exact List.mem_append_left _ newMember
    have nowhere := due.unfiled second inside new printed'
    rw [symbol', unit'] at nowhere
    rw [symbol, unit] at there
    exact there nowhere
  rw [own, ← take_segment stream middle, symbolPrints_append, before, List.nil_append]

theorem Due.written : FiledTo geometry writer stream moved
      (disk.placeAll (ready.flatMap writer.writeUnit)) ∧
    Unfiled geometry writer stream moved further (disk.placeAll (ready.flatMap writer.writeUnit)) := by
  obtain ⟨low, middle, high⟩ := due.ordered
  have placed : ∀ path rows, .trades path rows ∈ ready.flatMap writer.writeUnit →
      ∃ unit ∈ ready, ∃ symbolId ∈ tradedSymbols stream, path = writer.pathFor symbolId unit.startNs ∧
        rows = symbolPrints geometry symbolId unit.startNs (stream.entries.take moved) := by
    intro path rows member
    obtain ⟨unit, inside, own⟩ := List.mem_flatMap.mp member
    obtain ⟨symbolId, path, same, some⟩ := (due.whole unit inside).trades_written.mp own
    rw [same] at some
    obtain ⟨traded, -⟩ := mem_tradedSymbols (fun _ => mem_segment) some
    exact ⟨unit, inside, symbolId, traded, path, same.trans (due.rows inside some)⟩
  refine ⟨⟨fun entry member trade printed => ?_, fun path rows found => ?_⟩,
    fun entry member trade printed => ?_⟩
  · refine placed_present ?_
    rw [← take_segment stream middle] at member
    cases List.mem_append.mp member with
    | inl old => exact .inl (due.filed.filed entry old trade printed)
    | inr new =>
        obtain ⟨unit, inside, start⟩ := due.complete entry new (by simp [printed])
        have some : symbolPrints geometry trade.symbolId unit.startNs
            (segment stream first further) ≠ [] := by
          refine List.ne_nil_of_mem (mem_symbolPrints.mpr ⟨entry, ?_, printed, start.symm, rfl⟩)
          rw [← segment_append (low.trans middle) high, ← segment_append low middle]
          exact List.mem_append_left _ (List.mem_append_right _ new)
        refine .inr ⟨_, List.mem_flatMap.mpr ⟨unit, inside,
          (due.whole unit inside).trades_written.mpr ⟨trade.symbolId, start ▸ rfl, rfl, some⟩⟩⟩
  · cases placed_trades found with
    | inl new =>
        obtain ⟨unit, inside, symbolId, traded, path, same⟩ := placed path rows new
        obtain ⟨entry, own, start⟩ := due.origin unit inside
        exact ⟨entry, own, symbolId, traded, start ▸ path, start ▸ same⟩
    | inr old =>
        obtain ⟨entry, own, symbolId, traded, path, same⟩ := due.filed.held path rows old
        refine ⟨entry, own, symbolId, traded, path, same.trans ?_⟩
        have none : symbolPrints geometry symbolId (unitOf geometry entry)
            (segment stream place moved) = [] := by
          by_contra filled
          obtain ⟨new, newPrint⟩ := List.exists_mem_of_ne_nil _ filled
          obtain ⟨second, newMember, printed, unit, symbol⟩ := mem_symbolPrints.mp newPrint
          have inside : second ∈ segment stream place further := by
            rw [← segment_append middle high]
            exact List.mem_append_left _ newMember
          have nowhere := due.unfiled second inside new printed
          rw [symbol, unit, ← path, old] at nowhere
          cases nowhere
        rw [← take_segment stream middle, symbolPrints_append, none, List.append_nil]
  · have inside : entry ∈ segment stream place further := by
      rw [← segment_append middle high]
      exact List.mem_append_right _ member
    cases found : (disk.placeAll (ready.flatMap writer.writeUnit)).trades.get?
        (writer.pathFor trade.symbolId (unitOf geometry entry)) with
    | none => rfl
    | some rows =>
        cases placed_trades found with
        | inl new =>
            obtain ⟨unit, sealed, symbolId, traded, path, -⟩ := placed _ rows new
            obtain ⟨other, -, start⟩ := due.origin unit sealed
            rw [← start] at path
            have same := (pathFor_inj path).2
            exact absurd (same.trans start) (due.late unit sealed entry member)
        | inr old => exact absurd (due.unfiled entry inside trade printed) (by simp [old])

end

/-! ## Runs -/

/-- A system in which all that is recorded is filed, and no print that is not. -/
structure Intact (geometry : Geometry) (writer : ArchiveWriter)
    (stream : Foundations.Stream Outbound) (first last place : Nat) (gone : List FlushUnit)
    (system : System) : Prop where
  recorded : Recorded geometry stream first last place gone system
  filed : FiledTo geometry writer stream place system.disk
  unfiled : Unfiled geometry writer stream place last system.disk
  waiting : ∀ entry ∈ segment stream place last, (printOf entry).isSome →
    unitOf geometry entry = openUnit geometry (segment stream first last)
  stopped : ∃ upto, system.stoppedAt = stream.position upto ∧
    ∀ entry ∈ stream.entries.take upto, (printOf entry).isSome → entry ∈ stream.entries.take place

theorem start_intact (geometry : Geometry) (writer : ArchiveWriter)
    (stream : Foundations.Stream Outbound) :
    Intact geometry writer stream 0 0 0 [] (.start geometry) where
  recorded := start_recorded geometry stream
  filed := ⟨by simp, fun path rows found => by simp [System.start, Disk.blank, Dict.get?] at found⟩
  unfiled := by simp [Unfiled, segment]
  waiting := by simp [segment]
  stopped := ⟨0, rfl, by simp⟩

theorem Intact.keeps (intact : Intact geometry writer stream first last place gone system)
    (apart : NamesApart writer stream) : StopsKeep stream system := by
  intro entry member applied trade printed
  obtain ⟨upto, stoppedAt, filed⟩ := intact.stopped
  have taken : entry ∈ stream.entries.take upto := by
    rw [← stream.filter_le_position upto, ← stoppedAt]
    exact List.mem_filter.mpr ⟨member, by simpa using applied⟩
  exact intact.filed.unique apart (filed entry taken (by simp [printed])) printed

section
variable (intact : Intact geometry writer stream first last place gone system)
  (timed : Timed stream.entries) {count : Nat} (onward : last ≤ further)
  (stands : Stands geometry stream first further (gone ++ system.due geometry stream count)
    (system.drained geometry stream count))
include intact timed onward stands

/-- A print that is read and not recorded is in a unit that the step seals, or in the open one. -/
theorem Intact.sealed (member : entry ∈ segment stream place further)
    (printed : (printOf entry).isSome)
    (before : unitOf geometry entry < openUnit geometry (segment stream first further)) :
    ∃ unit ∈ system.due geometry stream count, unit.startNs = unitOf geometry entry := by
  have given := intact.recorded
  obtain ⟨unit, inside, start⟩ := stands.described.complete_of_print
    (mem_segment_later given.between.1 member) printed before
  rw [stands.drained, List.append_nil] at inside
  refine ⟨unit, (List.mem_append.mp inside).resolve_left fun old => ?_, start⟩
  obtain ⟨less, oldest, within, -⟩ :=
    given.stands.described.earlier unit (List.mem_append_left _ old)
  rw [start] at less
  rw [← segment_append given.between.2 onward] at member
  cases List.mem_append.mp member with
  | inl waits => exact absurd (intact.waiting entry waits printed) less.ne
  | inr new =>
      have later := @openUnit_le_rest geometry _ _ _ timed entry (List.ne_nil_of_mem within)
        (mem_segment_drop new)
      exact absurd less (not_lt.mpr later)

variable (read : stream.read system.archiver.position count = segment stream last further)
  (untouched : system.Untouched geometry writer stream (.step count .done))
include read untouched

omit timed stands in
theorem Intact.unread : Unfiled geometry writer stream place further system.disk := by
  intro entry member trade printed
  rw [← segment_append intact.recorded.between.2 onward] at member
  cases List.mem_append.mp member with
  | inl waits => exact intact.unfiled entry waits trade printed
  | inr new => exact untouched entry (read ▸ new) trade printed

theorem Intact.idle (none : system.due geometry stream count = []) :
    Intact geometry writer stream first further place (gone ++ system.due geometry stream count)
      (system.step geometry writer stream (.step count .done)) := by
  obtain ⟨disk, recorded⟩ := @Recorded.idle geometry writer _ _ _ _ _ _ intact.recorded _ _
    none onward stands
  refine ⟨recorded, disk ▸ intact.filed, disk ▸ intact.unread onward read untouched,
    fun entry member printed => ?_, ?_⟩
  · have upper := @Timed.le_openUnit geometry _ (segment_timed timed first further) entry
      (mem_segment_later recorded.between.1 member)
    refine le_antisymm upper (not_lt.mp fun before => ?_)
    obtain ⟨unit, inside, -⟩ := intact.sealed timed onward stands member printed before
    simp [none] at inside
  · rw [step_done, System.writeReady, if_pos none]
    exact intact.stopped

theorem Intact.write (some : system.due geometry stream count ≠ []) :
    ∃ moved, Intact geometry writer stream first further moved
      (gone ++ system.due geometry stream count)
        (system.step geometry writer stream (.step count .done)) := by
  have given := intact.recorded
  obtain ⟨moved, recorded, within, early, late⟩ := @Stands.write geometry writer _ _ _ _ _ _
    stands timed some
  have upper := @Timed.le_openUnit geometry _ (segment_timed timed first further)
  -- the checkpoint does not go back
  have moves : place ≤ moved := by
    by_contra back
    have less := not_le.mp back
    obtain ⟨old, inside⟩ := exists_mem_segment less given.within
    have start := recorded.between.1
    obtain ⟨newest, beyond⟩ := exists_mem_segment (given.reaches (start.trans_lt less))
      given.stands.within
    have first_ := given.cut old (mem_segment_later start inside) newest (mem_segment_drop beyond)
    have second := late old (mem_segment_drop inside)
    have third := upper newest (by
      rw [← segment_append (given.between.1.trans given.between.2) onward]
      exact List.mem_append_left _ (mem_segment_later given.between.1 beyond))
    omega
  have disk : (system.step geometry writer stream (.step count .done)).disk =
      { system.disk.placeAll ((system.due geometry stream count).flatMap writer.writeUnit) with
        checkpoint := Option.some (system.drained geometry stream count).state.checkpoint } := by
    rw [step_done, writeReady_disk, if_neg some]
  have units : ∀ unit ∈ system.due geometry stream count,
      unit ∈ gone ++ system.due geometry stream count ++
        (system.drained geometry stream count).state.ready := fun unit member =>
    List.mem_append_left _ (List.mem_append_right _ member)
  have due : Due geometry writer stream first place moved further
      (system.due geometry stream count) system.disk :=
    { ordered := ⟨given.between.1, moves, within.le⟩
      whole := fun unit member => stands.described.whole unit (units unit member)
      origin := fun unit member => by
        obtain ⟨-, entry, inside, own⟩ := stands.described.earlier unit (units unit member)
        exact ⟨entry, mem_segment inside, own⟩
      early := fun unit member before inside => (given.before_due timed member before inside).ne
      late := fun unit member after inside => by
        have past := (stands.described.earlier unit (units unit member)).1
        exact (past.trans_le (late after (mem_segment_drop inside))).ne'
      complete := fun entry member printed => by
        have inside : entry ∈ segment stream place further := by
          rw [← segment_append moves within.le]
          exact List.mem_append_left _ member
        exact intact.sealed timed onward stands inside printed
          (early entry (mem_segment_later given.between.1 member))
      filed := intact.filed
      unfiled := intact.unread onward read untouched }
  obtain ⟨filed, unfiled⟩ := due.written
  refine ⟨moved, recorded, ?_, ?_, fun entry member _ => ?_, ?_⟩
  · rw [disk]
    exact ⟨filed.filed, filed.held⟩
  · rw [disk]
    exact unfiled
  · exact le_antisymm (upper entry (mem_segment_later recorded.between.1 member))
      (late entry (mem_segment_drop member))
  · obtain ⟨upto, stoppedAt, before⟩ := intact.stopped
    rw [step_done, System.writeReady, if_neg some]
    exact ⟨upto, stoppedAt, fun entry member printed =>
      (List.take_subset_take_left _ moves) (before entry member printed)⟩

end

/-- What a stop writes is the unit that was open. -/
theorem Stands.mem_rest (stands : Stands geometry stream first last gone system.archiver)
    (timed : Timed stream.entries) {unit : FlushUnit} (member : unit ∈ system.rest geometry) :
    unit.startNs = openUnit geometry (segment stream first last) := by
  have some : segment stream first last ≠ [] := fun none => by simp [stands.rest_nil none] at member
  obtain ⟨sealed, finished⟩ := stands.described.finish (segment_timed timed first last) some
  have inside := (List.mem_insertionSort _).mp member
  rw [finished.ready, stands.drained] at inside
  split at inside
  · cases inside
  · exact List.mem_singleton.mp inside ▸ finished.startNs

theorem stop_stoppedAt (system : System) :
    (system.step geometry writer stream .stop).stoppedAt = system.archiver.position := by
  simp only [System.step, System.restart, System.writeReady]
  split <;> rfl

theorem Intact.stop (intact : Intact geometry writer stream first last place gone system)
    (timed : Timed stream.entries) : ∃ place,
      Intact geometry writer stream place place place []
        (system.step geometry writer stream .stop) := by
  have given := intact.recorded
  -- a print that is not recorded is in the unit that the stop seals
  have sealed : ∀ entry ∈ segment stream place last, (printOf entry).isSome →
      ∃ unit ∈ system.rest geometry, unit.startNs = unitOf geometry entry := by
    intro entry member printed
    have inside := mem_segment_later given.between.1 member
    have covers := given.stands.described.finish_covers (segment_timed timed first last)
      (List.ne_nil_of_mem inside)
    obtain ⟨trade, print⟩ := Option.isSome_iff_exists.mp printed
    obtain ⟨unit, own, start⟩ := (covers.complete entry inside).resolve_right fun empty =>
      List.ne_nil_of_mem (mem_unitPrints inside print) empty.1
    refine ⟨unit, (List.mem_insertionSort _).mpr ((List.mem_append.mp own).resolve_left fun old => ?_),
      start⟩
    have less := (given.stands.described.earlier unit (List.mem_append_left _ old)).1
    rw [start, intact.waiting entry member printed] at less
    exact absurd less (lt_irrefl _)
  have stoppedAt := (@stop_stoppedAt geometry writer stream system).trans given.stands.position
  have disk := @stop_disk geometry writer stream system
  by_cases none : system.rest geometry = []
  · rw [if_pos none] at disk
    refine ⟨place, given.stop_idle none, disk ▸ intact.filed, ?_, ?_, last, stoppedAt, ?_⟩
    · simp [Unfiled, segment_self]
    · simp [segment_self]
    · intro entry member printed
      rw [← take_segment stream given.between.2] at member
      refine (List.mem_append.mp member).resolve_right fun waits => ?_
      obtain ⟨unit, inside, -⟩ := sealed entry waits printed
      simp [none] at inside
  · have some : segment stream first last ≠ [] := mt given.stands.rest_nil none
    have covers := given.stands.described.finish_covers (segment_timed timed first last) some
    have units : ∀ unit ∈ system.rest geometry,
        unit ∈ gone ++ (system.archiver.state.finish geometry).ready := fun unit member =>
      List.mem_append_right _ ((List.mem_insertionSort _).mp member)
    have due : Due geometry writer stream first place last last (system.rest geometry) system.disk :=
      { ordered := ⟨given.between.1, given.between.2, le_rfl⟩
        whole := fun unit member => covers.whole unit (units unit member)
        origin := fun unit member => by
          obtain ⟨entry, inside, own⟩ := covers.origin unit (units unit member)
          exact ⟨entry, mem_segment inside, own⟩
        early := fun unit member before inside => by
          obtain ⟨newest, beyond⟩ := exists_mem_segment (given.reaches (lt_of_mem_segment inside))
            given.stands.within
          have less := given.cut before inside newest (mem_segment_drop beyond)
          have upper := @Timed.le_openUnit geometry _ (segment_timed timed first last) newest
            (mem_segment_later given.between.1 beyond)
          rw [given.stands.mem_rest timed member]
          exact (less.trans_le upper).ne
        late := by simp [segment_self]
        complete := sealed
        filed := intact.filed
        unfiled := intact.unfiled }
    rw [if_neg none] at disk
    obtain ⟨filed, -⟩ := due.written
    refine ⟨last, given.stop_write timed none, ?_, ?_, ?_, last, stoppedAt, fun entry member _ => member⟩
    · rw [disk]
      exact ⟨filed.filed, filed.held⟩
    · simp [Unfiled, segment_self]
    · simp [segment_self]

/-- While no step reads a print of a unit that is filed already, stops lose no fill. -/
theorem stops_keep_fills (apart : NamesApart writer stream) (timed : Timed stream.entries)
    {actions : List Action}
    (untouched : Along (System.step geometry writer stream)
      (System.Untouched geometry writer stream) (.start geometry) actions) :
    Always (System.step geometry writer stream) (StopsKeep stream) (.start geometry) actions := by
  have intact : Always (System.step geometry writer stream) (fun system =>
      ∃ first last place gone, Intact geometry writer stream first last place gone system)
      (.start geometry) actions := by
    refine Always.of_along (fun system action held untouched => ?_)
      ⟨0, 0, 0, [], start_intact geometry writer stream⟩ untouched
    obtain ⟨first, last, place, gone, intact⟩ := held
    cases action with
    | stop =>
        obtain ⟨next, stopped⟩ := intact.stop timed
        exact ⟨next, next, next, [], stopped⟩
    | step count outcome =>
        cases outcome with
        | done =>
            obtain ⟨further, onward, read, stands⟩ := intact.recorded.read timed count
            by_cases none : system.due geometry stream count = []
            · exact ⟨_, _, _, _, intact.idle timed onward stands read untouched none⟩
            · obtain ⟨moved, next⟩ := intact.write timed onward stands read untouched none
              exact ⟨_, _, _, _, next⟩
        | _ => exact untouched.elim
  intro before after split
  obtain ⟨first, last, place, gone, intact⟩ := intact before after split
  exact intact.keeps apart

/-- Two fills of one minute and one of the next. -/
def threeFills : Foundations.Stream Outbound := fillsAt [(1, 1), (2, 1), (61, 1)]

theorem stops_keep_fills_minute :
    Always (System.step minutes oneListed threeFills) (StopsKeep threeFills) (.start minutes)
      [.step 2 .done, .stop, .step 1 .done, .stop] :=
  stops_keep_fills (by decide +kernel) (by decide +kernel) (by decide +kernel)

/-- Two stops in one minute: the second file takes the place of the first. -/
theorem second_stop_loses_fill :
    ∃ stream : Foundations.Stream Outbound, Timed stream.entries ∧ NamesApart oneListed stream ∧
      ¬ StopsKeep stream (System.run minutes oneListed stream (.start minutes)
        [.step 1 .done, .stop, .step 1 .done, .stop]) := by
  refine ⟨threeFills, by decide +kernel, by decide +kernel, fun kept => ?_⟩
  obtain ⟨⟨path, index⟩, row, -⟩ := kept
    (toLex (1, 0), .fill ⟨nsPerSecond, 1, 2, 8, 9, 100, 1, 1, 1⟩) (by decide +kernel)
    (by decide +kernel) _ rfl
  have lost : ∀ rows ∈ (System.run minutes oneListed threeFills (.start minutes)
      [.step 1 .done, .stop, .step 1 .done, .stop]).disk.trades.values,
      (⟨1, 100, 1, 1, nsPerSecond, toLex (1, 0)⟩ : Trade) ∉ rows := by decide +kernel
  obtain ⟨rows, found, here⟩ := Option.bind_eq_some_iff.mp row
  exact lost rows (Dict.mem_values_iff.mpr ⟨path, found⟩) (List.mem_of_getElem? here)

end QuantArena.Archive
