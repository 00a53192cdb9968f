import QuantArena.Archiver.Sampling

/-! An `ArchiveState` over a whole part of the stream: the unit being filled, the units
that were sealed, and what one more record does to both. -/

set_option autoImplicit false

namespace QuantArena.Archive

open Foundations Contracts Fanout

variable {geometry : Geometry} {seen : List Entry} {entry : Entry} {start : Int}
  {unit : FlushUnit} {prints : List Trade} {closed taken : List Bar}

/-- The unit of the last record. -/
def openUnit (geometry : Geometry) (seen : List Entry) : Int :=
  (seen.getLast?.map (unitOf geometry)).getD 0

/-- A unit while its records come in. -/
structure Filling (geometry : Geometry) (seen : List Entry) (start : Int) (unit : FlushUnit) :
    Prop where
  startNs : unit.startNs = start
  trades : unit.rows.trades = unitPrints geometry start seen
  bars : ∀ symbolId, unit.rows.bars.filter (fun bar => bar.symbolId = symbolId) =
    ((BarSet.new symbolId geometry.barWidths).collect
      (symbolPrints geometry symbolId start seen)).2
  resumeAfter : unit.resumeAfter =
    Stream.reached (seen.filter fun entry => unitOf geometry entry < start) .start
  samples : Underway geometry seen start unit

/-- A unit that nothing more can join. -/
structure Whole (geometry : Geometry) (seen : List Entry) (unit : FlushUnit) : Prop where
  trades : unit.rows.trades = unitPrints geometry unit.startNs seen
  bars : ∀ symbolId, unit.rows.bars.filter (fun bar => bar.symbolId = symbolId) =
    symbolBars geometry symbolId unit.startNs seen

/-! ## Units -/

theorem mem_unitPrints {trade : Trade} (member : entry ∈ seen) (printed : printOf entry = some trade) :
    trade ∈ unitPrints geometry (unitOf geometry entry) seen := by
  refine List.mem_filter.mpr ⟨List.mem_filterMap.mpr ⟨entry, member, printed⟩, ?_⟩
  rw [printOf_timestampNs printed, unitOf]
  exact decide_eq_true rfl

theorem unitPrints_filter (entry : Entry) (start : Int) :
    (unitPrints geometry (unitOf geometry entry) [entry]).filter
        (fun trade => geometry.unitStart trade.timestampNs = start) =
      unitPrints geometry start [entry] := by
  cases printed : printOf entry with
  | none => simp [unitPrints, printed]
  | some trade =>
      have unit : geometry.unitStart trade.timestampNs = unitOf geometry entry := by
        rw [printOf_timestampNs printed, unitOf]
      simp [unitPrints, printed, unit]

/-- The rows of a record of the unit itself, which was sampled before. -/
theorem Filling.grow {other : FlushUnit} (filling : Filling geometry seen (unitOf geometry entry) unit)
    (same : SameRows unit other)
    (samples : Underway geometry (seen ++ [entry]) (unitOf geometry entry) other)
    (inside : ∀ bar ∈ closed, geometry.unitStart bar.barOpenNs = unitOf geometry entry)
    (closes : ∀ symbolId, closed.filter (fun bar => bar.symbolId = symbolId) =
      (((BarSet.new symbolId geometry.barWidths).collect
        (symbolPrints geometry symbolId (unitOf geometry entry) seen)).1.collect
        (symbolPrints geometry symbolId (unitOf geometry entry) [entry])).2) :
    Filling geometry (seen ++ [entry]) (unitOf geometry entry)
      (gain geometry (unitPrints geometry (unitOf geometry entry) [entry]) closed
        (unitOf geometry entry, other)).2 where
  startNs := same.1.trans filling.startNs
  trades := by
    simp only [gain, same.2.2.1, filling.trades, unitPrints_filter, unitPrints_append]
  bars := fun symbolId => by
    have all : closed.filter (fun bar => geometry.unitStart bar.barOpenNs = unitOf geometry entry) =
        closed := List.filter_eq_self.mpr fun bar member => by simp [inside bar member]
    simp only [gain, all, List.filter_append, same.2.2.2, filling.bars, closes, symbolPrints_append,
      collect_append]
  resumeAfter := by simpa [gain, same.2.1] using filling.resumeAfter
  samples := samples.congr rfl rfl

/-- A record that opens its unit. -/
theorem opened_filling {seen : List Entry} {streamId : StreamId}
    (earlier : ∀ before ∈ seen, unitOf geometry before < unitOf geometry entry)
    (others : ∀ bar ∈ closed, geometry.unitStart bar.barOpenNs ≠ unitOf geometry entry)
    (quiet : ∀ symbolId, ((BarSet.new symbolId geometry.barWidths).collect
      (symbolPrints geometry symbolId (unitOf geometry entry) [entry])).2 = []) :
    Filling geometry (seen ++ [entry]) (unitOf geometry entry)
      (gain geometry (unitPrints geometry (unitOf geometry entry) [entry]) closed
        (unitOf geometry entry, .opened (unitOf geometry entry) streamId
          (Stream.reached seen .start))).2 := by
  have none : ∀ before ∈ seen, unitOf geometry before ≠ unitOf geometry entry :=
    fun before member => (earlier before member).ne
  refine ⟨rfl, ?_, fun symbolId => ?_, ?_, ?_⟩
  · simp only [gain, FlushUnit.opened, unitPrints_filter, unitPrints_append,
      unitPrints_of_ne none]
  · have nothing : closed.filter
        (fun bar => geometry.unitStart bar.barOpenNs = unitOf geometry entry) = [] :=
      List.filter_eq_nil_iff.mpr fun bar member => by simp [others bar member]
    simp only [gain, FlushUnit.opened, nothing, List.append_nil, List.filter_nil,
      symbolPrints_append, symbolPrints_of_ne none, List.nil_append, quiet]
  · have kept : (seen ++ [entry]).filter
        (fun before => unitOf geometry before < unitOf geometry entry) = seen := by
      rw [List.filter_append, List.filter_eq_self.mpr fun before member => by
        simpa using earlier before member]
      simp
    simp only [gain, FlushUnit.opened, kept]
  · refine (opened_underway (fun before member => ?_) streamId
      (Stream.reached seen .start)).congr rfl rfl
    exact geometry.before_unit (earlier before member)

/-- A record of a later unit: the open bars are closed, and the unit is whole. -/
theorem Filling.whole {other : FlushUnit} (filling : Filling geometry seen start unit)
    (same : SameRows unit other)
    (later : unitOf geometry entry ≠ start)
    (inside : ∀ bar ∈ closed ++ taken, geometry.unitStart bar.barOpenNs = start)
    (closes : ∀ symbolId, (closed ++ taken).filter (fun bar => bar.symbolId = symbolId) =
      ((BarSet.new symbolId geometry.barWidths).collect
        (symbolPrints geometry symbolId start seen)).1.currents) :
    Whole geometry (seen ++ [entry])
      (gain geometry [] taken (gain geometry
        (unitPrints geometry (unitOf geometry entry) [entry]) closed (start, other))).2 := by
  have none : ∀ before ∈ [entry], unitOf geometry before ≠ start := by simpa using later
  have all : (closed ++ taken).filter (fun bar => geometry.unitStart bar.barOpenNs = start) =
      closed ++ taken := List.filter_eq_self.mpr fun bar member => by simp [inside bar member]
  refine ⟨?_, fun symbolId => ?_⟩
  · simp only [gain, same.1, same.2.2.1, filling.startNs, filling.trades, unitPrints_filter,
      unitPrints_append, unitPrints_of_ne none, List.append_nil, List.filter_nil]
  · simp only [gain, same.1, same.2.2.2, filling.startNs, List.append_assoc, ← List.filter_append, all]
    rw [List.filter_append, filling.bars, closes, symbolBars, symbolPrints_append,
      symbolPrints_of_ne none, List.append_nil, barsOf]

theorem Whole.grow (whole : Whole geometry seen unit)
    (later : unitOf geometry entry ≠ unit.startNs) : Whole geometry (seen ++ [entry]) unit := by
  have none : ∀ before ∈ [entry], unitOf geometry before ≠ unit.startNs := by simpa using later
  refine ⟨?_, fun symbolId => ?_⟩
  · rw [unitPrints_append, unitPrints_of_ne none, List.append_nil, whole.trades]
  · rw [symbolBars, symbolPrints_append, symbolPrints_of_ne none, List.append_nil]
    exact whole.bars symbolId

/-! ## The state -/

/-- A state that has folded `seen`, and out of which the units `gone` were drained. -/
structure Describes (geometry : Geometry) (seen : List Entry) (gone : List FlushUnit)
    (state : ArchiveState) : Prop where
  market : Folded geometry (fun symbolId => symbolPrints geometry symbolId
    (openUnit geometry seen) seen) state.market
  books : state.market.books = (told geometry seen).books
  lastStreamId : state.lastStreamId = Stream.reached seen .start
  opened : seen = [] ∧ state.opened.entries = [] ∨
    ∃ unit, seen ≠ [] ∧ state.opened.entries = [(openUnit geometry seen, unit)] ∧
      Filling geometry seen (openUnit geometry seen) unit
  through : ∀ start ∈ state.sealedThrough, seen ≠ [] ∧ start < openUnit geometry seen
  whole : ∀ unit ∈ gone ++ state.ready, Whole geometry seen unit
  earlier : ∀ unit ∈ gone ++ state.ready, unit.startNs < openUnit geometry seen ∧
    ∃ entry ∈ seen, unitOf geometry entry = unit.startNs
  ascending : (gone ++ state.ready).Pairwise fun first second => first.startNs < second.startNs
  samples : ∀ unit ∈ gone ++ state.ready,
    unit.rows.snapshots = unitSamples geometry unit.startNs seen
  complete : ∀ entry ∈ seen, unitOf geometry entry < openUnit geometry seen →
    (∃ unit ∈ gone ++ state.ready, unit.startNs = unitOf geometry entry) ∨
      unitPrints geometry (unitOf geometry entry) seen = [] ∧
        unitSamples geometry (unitOf geometry entry) seen = []

theorem new_describes (geometry : Geometry) : Describes geometry [] [] (.new geometry) where
  market := new_folded geometry
  books := rfl
  lastStreamId := rfl
  opened := .inl ⟨rfl, rfl⟩
  through := by simp [ArchiveState.new]
  whole := by simp [ArchiveState.new]
  earlier := by simp [ArchiveState.new]
  ascending := List.Pairwise.nil
  samples := by simp [ArchiveState.new]
  complete := by simp

/-- Draining takes the units that are ready, in the order in which they were sealed. -/
theorem Describes.drained {gone : List FlushUnit} {state : ArchiveState}
    (described : Describes geometry seen gone state) :
    state.drainReady.2 = state.ready ∧
      Describes geometry seen (gone ++ state.ready) state.drainReady.1 := by
  constructor
  · have ordered := (List.pairwise_append.mp described.ascending).2.1
    exact (ordered.imp fun before => before.le).insertionSort_eq
  · have nothing : gone ++ state.ready ++ state.drainReady.1.ready = gone ++ state.ready :=
      List.append_nil _
    refine ⟨described.market, described.books, described.lastStreamId, described.opened,
      described.through, ?_, ?_, ?_, ?_, ?_⟩ <;> rw [nothing]
    · exact described.whole
    · exact described.earlier
    · exact described.ascending
    · exact described.samples
    · exact described.complete

/-- A unit with a print is never empty. -/
theorem Describes.complete_of_print {gone : List FlushUnit} {state : ArchiveState}
    (described : Describes geometry seen gone state) (member : entry ∈ seen)
    (printed : (printOf entry).isSome) (early : unitOf geometry entry < openUnit geometry seen) :
    ∃ unit ∈ gone ++ state.ready, unit.startNs = unitOf geometry entry := by
  obtain ⟨trade, print⟩ := Option.isSome_iff_exists.mp printed
  refine (described.complete entry member early).resolve_right fun empty => ?_
  exact List.ne_nil_of_mem (mem_unitPrints member print) empty.1

theorem openUnit_snoc (seen : List Entry) (entry : Entry) :
    openUnit geometry (seen ++ [entry]) = unitOf geometry entry := by simp [openUnit]

theorem Timed.before (timed : Timed (seen ++ [entry])) :
    ∀ before ∈ seen, unitOf geometry before ≤ unitOf geometry entry := fun before member =>
  geometry.unitStart_mono ((List.pairwise_append.mp timed).2.2 before member entry (by simp))

theorem Timed.le_openUnit (timed : Timed seen) :
    ∀ before ∈ seen, unitOf geometry before ≤ openUnit geometry seen := by
  cases seen using List.reverseRecOn with
  | nil => simp
  | append_singleton rest last =>
      intro before member
      rw [openUnit_snoc]
      cases List.mem_append.mp member with
      | inl old => exact timed.before before old
      | inr same => rw [List.mem_singleton.mp same]

theorem openUnit_dvd (seen : List Entry) : nsPerSecond ∣ openUnit geometry seen := by
  cases seen using List.reverseRecOn with
  | nil => exact Int.dvd_zero _
  | append_singleton rest last =>
      rw [openUnit_snoc]
      exact geometry.seconds_dvd _

/-- The last record is not before its unit. -/
theorem openUnit_reached (some : seen ≠ []) :
    countBefore (openUnit geometry seen) seen < seen.length := by
  cases seen using List.reverseRecOn with
  | nil => exact absurd rfl some
  | append_singleton rest last =>
      rw [openUnit_snoc]
      exact countBefore_lt (by simp) (geometry.unitStart_le _)

/-- The unit of the last record does not go back. -/
theorem Timed.openUnit_le (timed : Timed (seen ++ [entry])) (some : seen ≠ []) :
    openUnit geometry seen ≤ unitOf geometry entry := by
  cases seen using List.reverseRecOn with
  | nil => exact absurd rfl some
  | append_singleton rest last =>
      rw [openUnit_snoc]
      exact timed.before last (by simp)

/-! ## One record -/

theorem ensureUnit_present {state : ArchiveState} {streamId resumeAfter : StreamId}
    (present : start ∈ state.opened.keys) :
    state.ensureUnit start streamId resumeAfter = state := by
  unfold ArchiveState.ensureUnit
  split
  · rfl
  · exact if_pos (Dict.contains_iff.mpr present)

theorem ensureUnit_absent {state : ArchiveState} {streamId resumeAfter : StreamId}
    (fresh : ∀ sealed ∈ state.sealedThrough, sealed < start) (absent : start ∉ state.opened.keys) :
    (state.ensureUnit start streamId resumeAfter).opened.entries =
      state.opened.entries ++ [(start, .opened start streamId resumeAfter)] := by
  have unsealed : ¬∃ sealed ∈ state.sealedThrough, start ≤ sealed := by
    rintro ⟨sealed, member, reached⟩
    exact absurd (fresh sealed member) (not_lt.mpr reached)
  unfold ArchiveState.ensureUnit
  rw [if_neg unsealed, if_neg (by rwa [Dict.contains_iff])]
  exact Dict.entries_set_fresh _ _ (Dict.get?_eq_none_iff.mpr absent)

theorem sealBefore_nothing {state : ArchiveState} {cutoff : Int}
    (none : ∀ key ∈ state.opened.keys, cutoff ≤ key) :
    state.sealBefore geometry cutoff = state := by
  have stale : state.opened.keys.filter (· < cutoff) = [] :=
    List.filter_eq_nil_iff.mpr fun key member => by simpa using none key member
  simp only [ArchiveState.sealBefore, stale, if_true]

theorem forceCloseBars_files (state : ArchiveState) (cutoff : Int) :
    Files (gain geometry [] (closing cutoff state.market).2)
      { state with market := (closing cutoff state.market).1 }
      (state.forceCloseBars geometry cutoff) := collectBars_files _ _

theorem gain_elsewhere (others : ∀ bar ∈ taken, geometry.unitStart bar.barOpenNs ≠ start)
    (unit : FlushUnit) : gain geometry [] taken (start, unit) = (start, unit) := by
  have nothing : taken.filter (fun bar => geometry.unitStart bar.barOpenNs = start) = [] :=
    List.filter_eq_nil_iff.mpr fun bar member => by simp [others bar member]
  simp [gain, nothing]

theorem sealUnit_first {state : ArchiveState} {start later : Int} {first second : FlushUnit}
    (opened : state.opened.entries = [(start, first), (later, second)]) (apart : start < later) :
    state.sealUnit start =
      { state with
        opened := state.opened.erase start
        sealedThrough := some ((state.sealedThrough.map (max start)).getD start)
        ready := if first.isEmpty then state.ready else state.ready ++ [first] } ∧
      (state.opened.erase start).entries = [(later, second)] := by
  have found : state.opened.get? start = some first :=
    Dict.get?_eq_some_iff.mpr (by simp [opened])
  constructor
  · simp only [ArchiveState.sealUnit, found]
  · simp [Dict.erase, opened, apart.ne']

/-- Sealing, where the earlier of two open units is over. -/
theorem sealBefore_turn {state : ArchiveState} {start later : Int} {first second : FlushUnit}
    (opened : state.opened.entries = [(start, first), (later, second)]) (apart : start < later)
    (others : ∀ bar ∈ (closing later state.market).2, geometry.unitStart bar.barOpenNs ≠ later) :
    (state.sealBefore geometry later).market = (closing later state.market).1 ∧
      (state.sealBefore geometry later).lastStreamId = state.lastStreamId ∧
      (state.sealBefore geometry later).opened.entries = [(later, second)] ∧
      (state.sealBefore geometry later).sealedThrough =
        some ((state.sealedThrough.map (max start)).getD start) ∧
      (state.sealBefore geometry later).ready =
        if (gain geometry [] (closing later state.market).2 (start, first)).2.isEmpty then
          state.ready
        else state.ready ++ [(gain geometry [] (closing later state.market).2 (start, first)).2] := by
  have keys : state.opened.keys = [start, later] := by rw [Dict.keys, opened]; rfl
  have stale : state.opened.keys.filter (· < later) = [start] := by simp [keys, apart]
  have files := @forceCloseBars_files geometry state later
  have both : (state.forceCloseBars geometry later).opened.entries =
      [(start, (gain geometry [] (closing later state.market).2 (start, first)).2),
        (later, second)] := by
    rw [files.opened]
    show state.opened.entries.map _ = _
    rw [opened, List.map_cons, List.map_cons, List.map_nil, gain_elsewhere others]
    rfl
  obtain ⟨shape, left⟩ := sealUnit_first both apart
  have one : state.sealBefore geometry later =
      (state.forceCloseBars geometry later).sealUnit start := by
    simp only [ArchiveState.sealBefore, stale, List.insertionSort_cons, List.insertionSort_nil, List.orderedInsert_nil, List.foldl_cons,
      List.foldl_nil]
    exact if_neg (by simp)
  rw [one, shape]
  refine ⟨files.market, files.lastStreamId, left, ?_, ?_⟩
  · rw [files.sealedThrough]
  · rw [files.ready]

/-- One record prints at most once. -/
theorem length_symbolPrints_le (symbolId start : Int) (entry : Entry) :
    (symbolPrints geometry symbolId start [entry]).length ≤ 1 := by
  refine (List.length_filter_le _ _).trans ((List.length_filter_le _ _).trans ?_)
  exact List.length_filterMap_le _ _

theorem mem_currents_of_collect {bars : BarSet} {trades : List Trade} {bar : Bar}
    (few : trades.length ≤ 1) (closed : bar ∈ (bars.collect trades).2) : bar ∈ bars.currents := by
  match trades, few with
  | [], _ => cases closed
  | [trade], _ => exact mem_currents_of_add closed

theorem symbolPrints_unit (symbolId start : Int) (seen : List Entry) :
    ∀ trade ∈ symbolPrints geometry symbolId start seen,
      geometry.unitStart trade.timestampNs = start := fun trade member => by
  obtain ⟨entry, -, printed, unit, -⟩ := mem_symbolPrints.mp member
  rw [printOf_timestampNs printed]
  exact unit

variable {gone : List FlushUnit} {state : ArchiveState}

/-- The bars that a record closes lie in the unit that was open before it. -/
theorem Describes.closed_unit (described : Describes geometry seen gone state) (timed : Timed seen)
    (entry : Entry) : ∀ bar ∈ (folded state.market entry).2.2,
      geometry.unitStart bar.barOpenNs = openUnit geometry seen := by
  intro bar member
  have step := (described.market.step (fun _ => timed.prints) entry).2.2 bar.symbolId
  have own : bar ∈ (folded state.market entry).2.2.filter (·.symbolId = bar.symbolId) :=
    List.mem_filter.mpr ⟨member, by simp⟩
  rw [step.1] at own
  exact currents_unit (described.market.sets _) timed.prints (symbolPrints_unit _ _ _) bar
    (mem_currents_of_collect (length_symbolPrints_le _ _ _) own)

theorem quiet_new (symbolId : Int) (entry : Entry) :
    ((BarSet.new symbolId geometry.barWidths).collect
      (symbolPrints geometry symbolId start [entry])).2 = [] := by
  refine List.eq_nil_iff_forall_not_mem.mpr fun bar member => ?_
  have current := mem_currents_of_collect (length_symbolPrints_le _ _ _) member
  rw [currents_new] at current
  cases current

theorem prepared_entries (state : ArchiveState) (entry : Entry) :
    (unitOf geometry entry ∈ state.opened.keys →
      (prepared geometry state entry).opened.entries = state.opened.entries.map
        (sampleEntry geometry state.market (secondStart entry.2.timestampNs))) ∧
    (unitOf geometry entry ∉ state.opened.keys →
      (∀ start ∈ state.sealedThrough, start < unitOf geometry entry) →
      (prepared geometry state entry).opened.entries = state.opened.entries.map
          (sampleEntry geometry state.market (secondStart entry.2.timestampNs)) ++
        [(unitOf geometry entry, .opened (unitOf geometry entry) entry.1 state.lastStreamId)]) := by
  have files := sampleUntil_files geometry { state with
    lastStreamId := entry.1
    recordsApplied := state.recordsApplied + 1 } (secondStart entry.2.timestampNs)
  have keys : ∀ key, key ∈ (ArchiveState.sampleUntil geometry { state with
      lastStreamId := entry.1
      recordsApplied := state.recordsApplied + 1 } (secondStart entry.2.timestampNs)).opened.keys ↔
      key ∈ state.opened.keys := fun key => by
    rw [Dict.keys, files.opened, List.map_map]
    rfl
  constructor
  · intro present
    rw [prepared, ensureUnit_present ((keys _).mpr present)]
    exact files.opened
  · intro absent fresh
    rw [prepared, ensureUnit_absent (files.sealedThrough ▸ fresh) (mt (keys _).mp absent)]
    exact congrArg (· ++ _) files.opened

/-- What the records before it left of a past unit, one more record leaves. -/
theorem past_unit {before : Entry} (member : before ∈ seen)
    (later : unitOf geometry before < unitOf geometry entry) :
    unitPrints geometry (unitOf geometry before) (seen ++ [entry]) =
        unitPrints geometry (unitOf geometry before) seen ∧
      unitSamples geometry (unitOf geometry before) (seen ++ [entry]) =
        unitSamples geometry (unitOf geometry before) seen := by
  constructor
  · have none : ∀ other ∈ [entry], unitOf geometry other ≠ unitOf geometry before := by
      simpa using later.ne'
    rw [unitPrints_append, unitPrints_of_ne none, List.append_nil]
  · refine unitSamples_append (countBefore_lt member (geometry.unitStart_le _)) fun other last => ?_
    cases List.mem_singleton.mp last
    exact (geometry.ends_before later).trans (geometry.unitStart_le _)

/-- A unit that was accounted for before a later record is so after it. -/
theorem Describes.complete_past (described : Describes geometry seen gone state) {before : Entry}
    (member : before ∈ seen) (early : unitOf geometry before < openUnit geometry seen)
    (later : unitOf geometry before < unitOf geometry entry) :
    (∃ unit ∈ gone ++ state.ready, unit.startNs = unitOf geometry before) ∨
      unitPrints geometry (unitOf geometry before) (seen ++ [entry]) = [] ∧
        unitSamples geometry (unitOf geometry before) (seen ++ [entry]) = [] := by
  obtain ⟨prints, samples⟩ := past_unit member later
  rw [prints, samples]
  exact described.complete before member early

theorem Describes.samples_past (described : Describes geometry seen gone state)
    (member : unit ∈ gone ++ state.ready) (later : unit.startNs < unitOf geometry entry) :
    unit.rows.snapshots = unitSamples geometry unit.startNs (seen ++ [entry]) := by
  obtain ⟨-, before, inside, own⟩ := described.earlier unit member
  rw [← own] at later ⊢
  rw [(past_unit inside later).2, own]
  exact described.samples unit member

/-- What a record that seals nothing leaves. -/
theorem Describes.unsealed (described : Describes geometry seen gone state) (timed : Timed seen)
    (within : seen = [] ∨ openUnit geometry seen = unitOf geometry entry) {unit : FlushUnit}
    (opened : (collected geometry state entry).opened.entries = [(unitOf geometry entry, unit)])
    (filling : Filling geometry (seen ++ [entry]) (unitOf geometry entry) unit) :
    Describes geometry (seen ++ [entry]) gone (state.apply geometry entry.1 entry.2) := by
  have files := @collected_files geometry state entry
  obtain ⟨-, ready, through, last⟩ := @prepared_kept geometry state entry
  have nothing : state.apply geometry entry.1 entry.2 = collected geometry state entry := by
    rw [apply_eq]
    exact sealBefore_nothing fun key member => by simp_all [Dict.keys]
  have kept : gone ++ (collected geometry state entry).ready = gone ++ state.ready := by
    rw [files.ready]
    exact congrArg _ ready
  have late : ∀ unit ∈ gone ++ state.ready, unit.startNs < unitOf geometry entry := by
    intro unit member
    obtain ⟨before, entry, inside, -⟩ := described.earlier unit member
    cases within with
    | inl none => simp [none] at inside
    | inr same => exact same ▸ before
  rw [nothing]
  refine ⟨?_, ?_, ?_, .inr ⟨unit, by simp, ?_, ?_⟩, ?_, ?_, ?_, ?_, ?_, ?_⟩
  · rw [files.market, openUnit_snoc]
    have step := (described.market.step (fun _ => timed.prints) entry).2.1
    cases within with
    | inl none =>
        cases none
        exact step
    | inr same =>
        rw [same] at step
        simp only [symbolPrints_append]
        exact step
  · rw [files.market]
    exact folded_books described.books entry
  · rw [files.lastStreamId]
    simpa [Stream.reached] using last
  · rw [openUnit_snoc]
    exact opened
  · rw [openUnit_snoc]
    exact filling
  · intro start member
    rw [files.sealedThrough] at member
    obtain ⟨some, before⟩ := described.through start (through ▸ member)
    rw [openUnit_snoc]
    cases within with
    | inl none => exact absurd none some
    | inr same => exact ⟨by simp, same ▸ before⟩
  · rw [kept]
    exact fun unit member => (described.whole unit member).grow (late unit member).ne'
  · rw [kept, openUnit_snoc]
    intro unit member
    obtain ⟨-, before, inside, own⟩ := described.earlier unit member
    exact ⟨late unit member, before, List.mem_append_left _ inside, own⟩
  · rw [kept]
    exact described.ascending
  · rw [kept]
    exact fun unit member => described.samples_past member (late unit member)
  · rw [kept, openUnit_snoc]
    intro before member early
    cases List.mem_append.mp member with
    | inl old =>
        cases within with
        | inl none => simp [none] at old
        | inr same => exact described.complete_past old (same ▸ early) early
    | inr new => exact absurd early (by simp [List.mem_singleton.mp new])

theorem Describes.apply_first (described : Describes geometry [] gone state) (entry : Entry) :
    Describes geometry [entry] gone (state.apply geometry entry.1 entry.2) := by
  have none : state.opened.entries = [] := by
    rcases described.opened with ⟨-, none⟩ | ⟨unit, some, -, -⟩
    · exact none
    · exact absurd rfl some
  have unsealed : ∀ start ∈ state.sealedThrough, start < unitOf geometry entry :=
    fun start member => absurd rfl (described.through start member).1
  have opened := (@prepared_entries geometry state entry).2 (by simp [Dict.keys, none]) unsealed
  have files := @collected_files geometry state entry
  have closed : ∀ bar ∈ (folded state.market entry).2.2,
      geometry.unitStart bar.barOpenNs ≠ unitOf geometry entry := by
    intro bar member
    have own : bar ∈ (folded state.market entry).2.2.filter (·.symbolId = bar.symbolId) :=
      List.mem_filter.mpr ⟨member, by simp⟩
    have step := (described.market.step (fun _ => List.Pairwise.nil) entry).2.2 bar.symbolId
    rw [step.1, (collect_congr (described.market.sets bar.symbolId) _).2] at own
    rw [show (BarSet.new bar.symbolId geometry.barWidths).collect
      (symbolPrints geometry bar.symbolId (openUnit geometry []) []) =
        (BarSet.new bar.symbolId geometry.barWidths, []) from rfl, quiet_new] at own
    cases own
  have prints := (described.market.step (fun _ => List.Pairwise.nil) entry).1
  have filling := @opened_filling geometry entry _ [] entry.1 (by simp) closed fun symbolId =>
    quiet_new symbolId entry
  refine described.unsealed List.Pairwise.nil (.inl rfl) ?_ filling
  rw [files.opened, ← prints]
  show ((prepared geometry state entry).opened.entries).map _ = _
  rw [opened, none, described.lastStreamId]
  rfl

theorem Describes.apply_same (described : Describes geometry seen gone state)
    (timed : Timed (seen ++ [entry])) (some : seen ≠ [])
    (same : openUnit geometry seen = unitOf geometry entry) :
    Describes geometry (seen ++ [entry]) gone (state.apply geometry entry.1 entry.2) := by
  obtain ⟨unit, entries, filling⟩ : ∃ unit,
      state.opened.entries = [(unitOf geometry entry, unit)] ∧
        Filling geometry seen (unitOf geometry entry) unit := by
    rcases described.opened with ⟨none, -⟩ | ⟨unit, -, entries, filling⟩
    · exact absurd none some
    · exact ⟨unit, same ▸ entries, same ▸ filling⟩
  have opened := (@prepared_entries geometry state entry).1 (by simp [Dict.keys, entries])
  have files := @collected_files geometry state entry
  have early : Timed seen := (List.pairwise_append.mp timed).1
  have step := described.market.step (fun _ => early.prints) entry
  have sampled := filling.samples.step described.books (geometry.seconds_dvd _) timed
    (same ▸ openUnit_reached some)
  have grown := filling.grow (sampleEntry_rows state.market _ (unitOf geometry entry, unit)) sampled
    (fun bar member => (described.closed_unit early entry bar member).trans same) fun symbolId => by
      have sets := described.market.sets symbolId
      rw [same] at sets
      exact (step.2.2 symbolId).1.trans (collect_congr sets _).2
  refine described.unsealed early (.inr same) ?_ grown
  rw [files.opened, ← step.1]
  show ((prepared geometry state entry).opened.entries).map _ = _
  rw [opened, entries, List.map_cons, List.map_nil, List.map_cons, List.map_nil]
  rfl

/-- Between two units, symbol by symbol: the bars that are closed, and the market that is left. -/
theorem Describes.turn (described : Describes geometry seen gone state)
    (timed : Timed (seen ++ [entry])) (later : openUnit geometry seen < unitOf geometry entry)
    (apart : openUnit geometry seen + geometry.flushNs ≤ unitOf geometry entry) :
    (∀ symbolId, ((folded state.market entry).2.2 ++
        (closing (unitOf geometry entry) (folded state.market entry).1).2).filter
          (fun bar => bar.symbolId = symbolId) =
        ((BarSet.new symbolId geometry.barWidths).collect
          (symbolPrints geometry symbolId (openUnit geometry seen) seen)).1.currents) ∧
      Folded geometry (fun symbolId =>
          symbolPrints geometry symbolId (unitOf geometry entry) (seen ++ [entry]))
        (closing (unitOf geometry entry) (folded state.market entry).1).1 := by
  have early : Timed seen := (List.pairwise_append.mp timed).1
  have step := described.market.step (fun _ => early.prints) entry
  have ordered : ∀ symbolId, InOrder (symbolPrints geometry symbolId (openUnit geometry seen) seen ++
      symbolPrints geometry symbolId (unitOf geometry entry) [entry]) := by
    intro symbolId
    refine List.pairwise_append.mpr ⟨early.prints,
      Timed.prints (List.pairwise_singleton _ _), ?_⟩
    intro trade member newest latest
    obtain ⟨first, inside, printed, -⟩ := mem_symbolPrints.mp member
    obtain ⟨second, same, printed', -⟩ := mem_symbolPrints.mp latest
    rw [printOf_timestampNs printed, printOf_timestampNs printed']
    exact (List.pairwise_append.mp timed).2.2 first inside second same
  have turn := fun symbolId => turn_over (described.market.sets symbolId) early.prints
    (symbolPrints_unit symbolId _ seen) (symbolPrints_unit symbolId _ [entry]) apart
    (length_symbolPrints_le symbolId _ entry)
  have closes := fun symbolId => step.2.1.closing ordered (unitOf geometry entry) symbolId
  constructor
  · intro symbolId
    rw [List.filter_append, (step.2.2 symbolId).1, (closes symbolId).1, (step.2.2 symbolId).2]
    exact (turn symbolId).1
  · refine ⟨step.2.1.widths, step.2.1.drained, step.2.1.closed, fun symbolId => ?_⟩
    have none : ∀ before ∈ seen, unitOf geometry before ≠ unitOf geometry entry :=
      fun before member => ((early.le_openUnit before member).trans_lt later).ne
    rw [(closes symbolId).2, (step.2.2 symbolId).2, symbolPrints_append,
      symbolPrints_of_ne none, List.nil_append]
    exact (turn symbolId).2

/-- The units before the open one, when the last of them is sealed. -/
structure Sealed (geometry : Geometry) (seen : List Entry) (gone : List FlushUnit)
    (entry : Entry) (sealed : FlushUnit) (ready : List FlushUnit) (state : ArchiveState) : Prop where
  startNs : sealed.startNs = openUnit geometry seen
  whole : Whole geometry (seen ++ [entry]) sealed
  samples : sealed.rows.snapshots = unitSamples geometry sealed.startNs (seen ++ [entry])
  ready : ready = if sealed.isEmpty then state.ready else state.ready ++ [sealed]

theorem Sealed.mem {sealed : FlushUnit} {ready : List FlushUnit}
    (given : Sealed geometry seen gone entry sealed ready state) {unit : FlushUnit}
    (member : unit ∈ gone ++ ready) :
    unit ∈ gone ++ state.ready ∨ unit = sealed := by
  rw [given.ready] at member
  split at member
  · exact .inl member
  · rw [← List.append_assoc] at member
    cases List.mem_append.mp member with
    | inl old => exact .inl old
    | inr new => exact .inr (List.mem_singleton.mp new)

theorem Sealed.complete {sealed : FlushUnit} {ready : List FlushUnit}
    (given : Sealed geometry seen gone entry sealed ready state) :
    (∀ unit ∈ gone ++ state.ready, unit ∈ gone ++ ready) ∧
      (sealed ∈ gone ++ ready ∨
        unitPrints geometry (openUnit geometry seen) (seen ++ [entry]) = [] ∧
          unitSamples geometry (openUnit geometry seen) (seen ++ [entry]) = []) := by
  rw [given.ready]
  cases empty : sealed.isEmpty with
  | true =>
      refine ⟨fun unit member => by simpa using member, .inr ?_⟩
      have none : sealed.rows.trades = [] ∧ sealed.rows.snapshots = [] := by
        simp only [FlushUnit.isEmpty, Bool.and_eq_true, List.isEmpty_iff] at empty
        exact ⟨empty.1.1, empty.2⟩
      rw [← given.startNs, ← given.whole.trades, ← given.samples]
      exact none
  | false =>
      refine ⟨fun unit member => ?_, .inl (by simp)⟩
      rw [if_neg Bool.false_ne_true, ← List.append_assoc]
      exact List.mem_append_left _ member

theorem openUnit_ends (some : seen ≠ []) (later : openUnit geometry seen < unitOf geometry entry) :
    openUnit geometry seen + geometry.flushNs ≤ unitOf geometry entry := by
  cases seen using List.reverseRecOn with
  | nil => exact absurd rfl some
  | append_singleton rest last =>
      rw [openUnit_snoc] at later ⊢
      exact geometry.ends_before later

/-- What a record of a later unit leaves. -/
theorem Describes.later_shape (described : Describes geometry seen gone state)
    (timed : Timed (seen ++ [entry])) (some : seen ≠ [])
    (later : openUnit geometry seen < unitOf geometry entry) :
    ∃ unit sealed, (state.apply geometry entry.1 entry.2).opened.entries =
        [(unitOf geometry entry, unit)] ∧
      Filling geometry (seen ++ [entry]) (unitOf geometry entry) unit ∧
      Sealed geometry seen gone entry sealed (state.apply geometry entry.1 entry.2).ready state ∧
      (state.apply geometry entry.1 entry.2).sealedThrough =
        Option.some ((state.sealedThrough.map (max (openUnit geometry seen))).getD
          (openUnit geometry seen)) ∧
      (state.apply geometry entry.1 entry.2).lastStreamId = entry.1 ∧
      Folded geometry (fun symbolId =>
          symbolPrints geometry symbolId (unitOf geometry entry) (seen ++ [entry]))
        (state.apply geometry entry.1 entry.2).market ∧
      (state.apply geometry entry.1 entry.2).market.books =
        (told geometry (seen ++ [entry])).books := by
  have early : Timed seen := (List.pairwise_append.mp timed).1
  obtain ⟨unit, entries, filling⟩ : ∃ unit, state.opened.entries = [(openUnit geometry seen, unit)] ∧
      Filling geometry seen (openUnit geometry seen) unit := by
    rcases described.opened with ⟨none, -⟩ | ⟨unit, -, entries, filling⟩
    · exact absurd none some
    · exact ⟨unit, entries, filling⟩
  have fresh : ∀ start ∈ state.sealedThrough, start < unitOf geometry entry :=
    fun start member => (described.through start member).2.trans later
  have opened := (@prepared_entries geometry state entry).2
    (by simp [Dict.keys, entries, later.ne']) fresh
  have rows := @sampleEntry_rows geometry state.market (secondStart entry.2.timestampNs)
    (openUnit geometry seen, unit)
  have samples := filling.samples.complete described.books (openUnit_dvd seen) timed
    (openUnit_reached some) (openUnit_ends some later)
  have files := @collected_files geometry state entry
  have prints := (described.market.step (fun _ => early.prints) entry).1
  obtain ⟨closes, market⟩ := described.turn timed later (openUnit_ends some later)
  have units : ∀ bar ∈ (folded state.market entry).2.2 ++
      (closing (unitOf geometry entry) (folded state.market entry).1).2,
      geometry.unitStart bar.barOpenNs = openUnit geometry seen := by
    intro bar member
    have own := closes bar.symbolId ▸ List.mem_filter.mpr ⟨member, by simp⟩
    exact currents_unit rfl early.prints (symbolPrints_unit bar.symbolId _ seen) bar own
  have elsewhere : ∀ bar ∈ (folded state.market entry).2.2 ++
      (closing (unitOf geometry entry) (folded state.market entry).1).2,
      geometry.unitStart bar.barOpenNs ≠ unitOf geometry entry := fun bar member =>
    (units bar member).trans_ne later.ne
  have pair : (collected geometry state entry).opened.entries =
      [gain geometry (folded state.market entry).2.1 (folded state.market entry).2.2
          (sampleEntry geometry state.market (secondStart entry.2.timestampNs)
            (openUnit geometry seen, unit)),
        gain geometry (folded state.market entry).2.1 (folded state.market entry).2.2
          (unitOf geometry entry,
            .opened (unitOf geometry entry) entry.1 (Stream.reached seen .start))] := by
    rw [files.opened]
    show ((prepared geometry state entry).opened.entries).map _ = _
    rw [opened, entries, described.lastStreamId, List.map_cons, List.map_nil]
    rfl
  obtain ⟨left, last, one, through, ready⟩ := sealBefore_turn pair later (by
    rw [files.market]
    exact fun bar member => elsewhere bar (List.mem_append_right _ member))
  have kept := @prepared_kept geometry state entry
  rw [files.market] at left ready
  rw [files.ready, prints] at ready
  rw [prints] at one
  refine ⟨_, _, one, ?_, ⟨?_, filling.whole rows later.ne' units closes, ?_, ?_⟩, ?_, ?_, ?_, ?_⟩
  · refine @opened_filling geometry entry _ seen entry.1 (fun before member => ?_)
      (fun bar member => elsewhere bar (List.mem_append_left _ member))
      (fun symbolId => quiet_new symbolId entry)
    exact (early.le_openUnit before member).trans_lt later
  · exact rows.1.trans filling.startNs
  · refine samples.trans (congrArg (fun start => unitSamples geometry start (seen ++ [entry])) ?_)
    exact (rows.1.trans filling.startNs).symm
  · exact kept.2.1 ▸ ready
  · exact through.trans (by simp only [files.sealedThrough, kept.2.2.1, sampleEntry])
  · exact last.trans (files.lastStreamId.trans kept.2.2.2)
  · exact left ▸ market
  · exact left ▸ folded_books described.books entry

theorem Describes.apply_later (described : Describes geometry seen gone state)
    (timed : Timed (seen ++ [entry])) (some : seen ≠ [])
    (later : openUnit geometry seen < unitOf geometry entry) :
    Describes geometry (seen ++ [entry]) gone (state.apply geometry entry.1 entry.2) := by
  obtain ⟨unit, sealed, opened, filling, turned, through, last, market, books⟩ :=
    described.later_shape timed some later
  have early : Timed seen := (List.pairwise_append.mp timed).1
  obtain ⟨newest, found, own⟩ : ∃ newest ∈ seen, unitOf geometry newest = openUnit geometry seen := by
    cases seen using List.reverseRecOn with
    | nil => exact absurd rfl some
    | append_singleton rest last => exact ⟨last, by simp, (openUnit_snoc rest last).symm⟩
  refine ⟨?_, books, ?_, .inr ⟨unit, by simp, ?_, ?_⟩, ?_, ?_, ?_, ?_, ?_, ?_⟩
  · rw [openUnit_snoc]
    exact market
  · rw [last]
    simp [Stream.reached]
  · rw [openUnit_snoc]
    exact opened
  · rw [openUnit_snoc]
    exact filling
  · intro start member
    rw [through] at member
    cases member
    rw [openUnit_snoc]
    refine ⟨by simp, ?_⟩
    cases before : state.sealedThrough with
    | none => exact later
    | some old => exact max_lt later ((described.through old before).2.trans later)
  · intro unit member
    cases turned.mem member with
    | inl old =>
        exact (described.whole unit old).grow ((described.earlier unit old).1.trans later).ne'
    | inr same => exact same ▸ turned.whole
  · intro unit member
    rw [openUnit_snoc]
    cases turned.mem member with
    | inl old =>
        obtain ⟨before, entry, inside, unit⟩ := described.earlier unit old
        exact ⟨before.trans later, entry, List.mem_append_left _ inside, unit⟩
    | inr same =>
        rw [same, turned.startNs]
        exact ⟨later, newest, List.mem_append_left _ found, own⟩
  · rw [turned.ready]
    split
    · exact described.ascending
    · rw [← List.append_assoc]
      refine List.pairwise_append.mpr ⟨described.ascending, List.pairwise_singleton _ _, ?_⟩
      intro unit member new same
      rw [List.mem_singleton.mp same, turned.startNs]
      exact (described.earlier unit member).1
  · intro unit member
    cases turned.mem member with
    | inl old => exact described.samples_past old ((described.earlier unit old).1.trans later)
    | inr same => exact same ▸ turned.samples
  · rw [openUnit_snoc]
    intro before member less
    obtain ⟨kept, written⟩ := turned.complete
    cases List.mem_append.mp member with
    | inl old =>
        rcases (early.le_openUnit before old).lt_or_eq with earlier | same
        · refine (described.complete_past old earlier less).imp_left fun found => ?_
          obtain ⟨unit, inside, start⟩ := found
          exact ⟨unit, kept unit inside, start⟩
        · rw [same]
          exact written.imp_left fun inside => ⟨sealed, inside, turned.startNs⟩
    | inr new => exact absurd less (by simp [List.mem_singleton.mp new])

/-- One more record. -/
theorem Describes.apply (described : Describes geometry seen gone state)
    (timed : Timed (seen ++ [entry])) :
    Describes geometry (seen ++ [entry]) gone (state.apply geometry entry.1 entry.2) := by
  by_cases none : seen = []
  · cases none
    exact described.apply_first entry
  · rcases (timed.openUnit_le none).lt_or_eq with later | same
    · exact described.apply_later timed none later
    · exact described.apply_same timed none same

/-- And a batch. -/
theorem Describes.applyAll (described : Describes geometry seen gone state) {batch : List Entry}
    (timed : Timed (seen ++ batch)) :
    Describes geometry (seen ++ batch) gone (state.applyAll geometry batch) := by
  induction batch using List.reverseRecOn with
  | nil => simpa [ArchiveState.applyAll] using described
  | append_singleton before entry ih =>
      rw [← List.append_assoc] at timed ⊢
      rw [ArchiveState.applyAll, List.foldl_append]
      exact (ih (List.pairwise_append.mp timed).1).apply timed

end QuantArena.Archive
