import QuantArena.Archiver.StateRuns

/-! The end of a run, which seals the unit that is still open, and a whole run of one state:
its batches, what is drained after each of them, and the end. -/

set_option autoImplicit false

namespace QuantArena.Archive

open Foundations Contracts Fanout

variable {geometry : Geometry} {seen : List Entry} {entry : Entry} {start : Int}
  {gone : List FlushUnit} {unit other : FlushUnit} {state : ArchiveState} {taken : List Bar}

/-! ## Finishing -/

/-- The end of a run: the open bars are closed, and the unit is whole as far as it goes. -/
theorem Filling.finished (filling : Filling geometry seen start unit) (same : SameRows unit other)
    (inside : ∀ bar ∈ taken, geometry.unitStart bar.barOpenNs = start)
    (closes : ∀ symbolId, taken.filter (fun bar => bar.symbolId = symbolId) =
      ((BarSet.new symbolId geometry.barWidths).collect
        (symbolPrints geometry symbolId start seen)).1.currents) :
    Whole geometry seen (gain geometry [] taken (start, other)).2 where
  trades := by
    simp only [gain, same.1, same.2.2.1, filling.startNs, filling.trades, List.filter_nil,
      List.append_nil]
  bars := fun symbolId => by
    have all : taken.filter (fun bar => geometry.unitStart bar.barOpenNs = start) = taken :=
      List.filter_eq_self.mpr fun bar member => by simp [inside bar member]
    simp only [gain, same.1, same.2.2.2, filling.startNs, all, List.filter_append, filling.bars,
      closes]
    rw [symbolBars, barsOf]

/-- The bars that the end of a run takes. -/
theorem Describes.closing (described : Describes geometry seen gone state) (timed : Timed seen)
    (symbolId : Int) :
    (closing (openUnit geometry seen + geometry.flushNs) state.market).2.filter
        (fun bar => bar.symbolId = symbolId) =
      ((BarSet.new symbolId geometry.barWidths).collect
        (symbolPrints geometry symbolId (openUnit geometry seen) seen)).1.currents := by
  have closes := described.market.closing (fun _ => timed.prints)
    (openUnit geometry seen + geometry.flushNs) symbolId
  have ended := BarSet.ended_congr (described.market.sets symbolId)
    (openUnit geometry seen + geometry.flushNs)
  exact closes.1.trans (ended.trans
    (closeEnded_over (symbolPrints_unit symbolId _ seen) timed.prints le_rfl).1)

/-- What `finish` leaves of a state with an open unit. -/
structure Finished (geometry : Geometry) (seen : List Entry) (before : ArchiveState)
    (sealed : FlushUnit) (after : ArchiveState) : Prop where
  opened : after.opened.entries = []
  lastStreamId : after.lastStreamId = before.lastStreamId
  startNs : sealed.startNs = openUnit geometry seen
  whole : Whole geometry seen sealed
  samples : sealed.rows.snapshots = unitSamples geometry sealed.startNs seen
  ready : after.ready = if sealed.isEmpty then before.ready else before.ready ++ [sealed]

theorem sealUnit_last (opened : state.opened.entries = [(start, unit)]) :
    (state.sealUnit start).opened.entries = [] ∧
      (state.sealUnit start).lastStreamId = state.lastStreamId ∧
      (state.sealUnit start).ready = if unit.isEmpty then state.ready else state.ready ++ [unit] := by
  have found : state.opened.get? start = some unit :=
    Dict.get?_eq_some_iff.mpr (by simp [opened])
  simp only [ArchiveState.sealUnit, found]
  exact ⟨by simp [Dict.erase, opened], trivial, trivial⟩

theorem Describes.finish (described : Describes geometry seen gone state) (timed : Timed seen)
    (some : seen ≠ []) : ∃ sealed, Finished geometry seen state sealed (state.finish geometry) := by
  obtain ⟨unit, entries, filling⟩ : ∃ unit,
      state.opened.entries = [(openUnit geometry seen, unit)] ∧
        Filling geometry seen (openUnit geometry seen) unit := by
    rcases described.opened with ⟨none, -⟩ | ⟨unit, -, entries, filling⟩
    · exact absurd none some
    · exact ⟨unit, entries, filling⟩
  have closes := described.closing timed
  have units : ∀ bar ∈ (Archive.closing (openUnit geometry seen + geometry.flushNs) state.market).2,
      geometry.unitStart bar.barOpenNs = openUnit geometry seen := by
    intro bar member
    have own := closes bar.symbolId ▸ List.mem_filter.mpr ⟨member, by simp⟩
    exact currents_unit rfl timed.prints (symbolPrints_unit bar.symbolId _ seen) bar own
  have sampled := sampleUntil_files geometry state (openUnit geometry seen + geometry.flushNs)
  have closed := @forceCloseBars_files geometry
    (state.sampleUntil geometry (openUnit geometry seen + geometry.flushNs))
    (openUnit geometry seen + geometry.flushNs)
  have rows := @sampleEntry_rows geometry state.market (openUnit geometry seen + geometry.flushNs)
    (openUnit geometry seen, unit)
  have opened : ((state.sampleUntil geometry (openUnit geometry seen + geometry.flushNs)).forceCloseBars
      geometry (openUnit geometry seen + geometry.flushNs)).opened.entries =
      [(openUnit geometry seen, (gain geometry []
        (Archive.closing (openUnit geometry seen + geometry.flushNs) state.market).2
        (openUnit geometry seen, (sampleEntry geometry state.market
          (openUnit geometry seen + geometry.flushNs) (openUnit geometry seen, unit)).2)).2)] := by
    rw [closed.opened]
    show (state.sampleUntil geometry _).opened.entries.map _ = _
    rw [sampled.opened, entries]
    rfl
  have keys : ((state.sampleUntil geometry (openUnit geometry seen + geometry.flushNs)).forceCloseBars
      geometry (openUnit geometry seen + geometry.flushNs)).opened.keys =
      [openUnit geometry seen] := by rw [Dict.keys, opened]; rfl
  have last : state.opened.keys.max? = Option.some (openUnit geometry seen) := by
    simp [Dict.keys, entries]
  have one : state.finish geometry =
      ((state.sampleUntil geometry (openUnit geometry seen + geometry.flushNs)).forceCloseBars
        geometry (openUnit geometry seen + geometry.flushNs)).sealUnit (openUnit geometry seen) := by
    simp only [ArchiveState.finish, last, keys, List.insertionSort_cons, List.insertionSort_nil,
      List.orderedInsert_nil, List.foldl_cons, List.foldl_nil]
  obtain ⟨none, lastId, ready⟩ := sealUnit_last opened
  refine ⟨_, ⟨one ▸ none, ?_, ?_, filling.finished rows units closes, ?_, ?_⟩⟩
  · exact one ▸ lastId.trans (closed.lastStreamId.trans sampled.lastStreamId)
  · exact rows.1.trans filling.startNs
  · refine (filling.samples.finish described.books).trans
      (congrArg (fun start => unitSamples geometry start seen) ?_)
    exact (rows.1.trans filling.startNs).symm
  · rw [one, ready, closed.ready]
    rfl

/-- Units that account for all of a part of the stream. -/
structure Covers (geometry : Geometry) (seen : List Entry) (units : List FlushUnit) : Prop where
  whole : ∀ unit ∈ units, Whole geometry seen unit
  samples : ∀ unit ∈ units, unit.rows.snapshots = unitSamples geometry unit.startNs seen
  origin : ∀ unit ∈ units, ∃ entry ∈ seen, unitOf geometry entry = unit.startNs
  ascending : units.Pairwise fun first second => first.startNs < second.startNs
  complete : ∀ entry ∈ seen, (∃ unit ∈ units, unit.startNs = unitOf geometry entry) ∨
    unitPrints geometry (unitOf geometry entry) seen = [] ∧
      unitSamples geometry (unitOf geometry entry) seen = []

theorem Describes.finish_covers (described : Describes geometry seen gone state)
    (timed : Timed seen) (some : seen ≠ []) :
    Covers geometry seen (gone ++ (state.finish geometry).ready) := by
  obtain ⟨sealed, finished⟩ := described.finish timed some
  have start := finished.startNs
  rw [finished.ready]
  cases empty : sealed.isEmpty with
  | true =>
      have nothing : unitPrints geometry (openUnit geometry seen) seen = [] ∧
          unitSamples geometry (openUnit geometry seen) seen = [] := by
        simp only [FlushUnit.isEmpty, Bool.and_eq_true, List.isEmpty_iff] at empty
        rw [← start, ← finished.samples, ← finished.whole.trades]
        exact ⟨empty.1.1, empty.2⟩
      refine ⟨described.whole, described.samples, fun unit member => (described.earlier unit member).2,
        described.ascending, fun entry member => ?_⟩
      rcases (timed.le_openUnit entry member).lt_or_eq with early | same
      · exact described.complete entry member early
      · exact .inr (same ▸ nothing)
  | false =>
      rw [if_neg Bool.false_ne_true, ← List.append_assoc]
      have either : ∀ unit ∈ gone ++ state.ready ++ [sealed],
          unit ∈ gone ++ state.ready ∨ unit = sealed := fun unit member =>
        (List.mem_append.mp member).imp_right List.mem_singleton.mp
      refine ⟨fun unit member => ?_, fun unit member => ?_, fun unit member => ?_,
        List.pairwise_append.mpr ⟨described.ascending, List.pairwise_singleton _ _, ?_⟩,
        fun entry member => ?_⟩
      · cases either unit member with
        | inl old => exact described.whole unit old
        | inr last => exact last ▸ finished.whole
      · cases either unit member with
        | inl old => exact described.samples unit old
        | inr last => exact last ▸ finished.samples
      · cases either unit member with
        | inl old => exact (described.earlier unit old).2
        | inr last =>
            cases seen using List.reverseRecOn with
            | nil => exact absurd rfl some
            | append_singleton rest newest =>
                rw [openUnit_snoc] at start
                exact ⟨newest, by simp, by rw [last, start]⟩
      · intro unit inside last same
        rw [List.mem_singleton.mp same, start]
        exact (described.earlier unit inside).1
      · rcases (timed.le_openUnit entry member).lt_or_eq with early | same
        · refine (described.complete entry member early).imp_left fun found => ?_
          obtain ⟨unit, inside, own⟩ := found
          exact ⟨unit, List.mem_append_left _ inside, own⟩
        · exact .inl ⟨sealed, by simp, start.trans same.symm⟩

/-- What is drained at the end comes in the order in which it was sealed. -/
theorem Describes.finish_drained (described : Describes geometry seen gone state)
    (timed : Timed seen) (some : seen ≠ []) :
    (state.finish geometry).drainReady.2 = (state.finish geometry).ready :=
  ((List.pairwise_append.mp (described.finish_covers timed some).ascending).2.1.imp
    fun before => before.le).insertionSort_eq

theorem finish_nothing (described : Describes geometry [] gone state) :
    state.finish geometry = state := by
  have none : state.opened.keys.max? = none := by
    rcases described.opened with ⟨-, none⟩ | ⟨unit, some, -, -⟩
    · simp [Dict.keys, none]
    · exact absurd rfl some
  simp only [ArchiveState.finish, none]

end QuantArena.Archive
