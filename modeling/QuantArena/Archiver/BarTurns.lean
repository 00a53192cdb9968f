import QuantArena.Archiver.Units

/-! What a set of builders does at the end of a flush unit: every open bar is closed, by a
trade of a later unit or by force, and the builders are as new but for what they remember
having closed. -/

set_option autoImplicit false

namespace QuantArena.Fanout

open Foundations

/-- A builder less the bars it remembers, which nothing reads. -/
def BarBuilder.forget (builder : BarBuilder) : BarBuilder := { builder with closed := [] }

def BarSet.forget (bars : BarSet) : BarSet :=
  { bars with builders := bars.builders.mapValues fun _ builder => builder.forget }

variable {left right bars : BarSet} {symbolId : Int} {widths : List BarWidth} {trades : List Trade}
  {trade : Trade}

theorem BarBuilder.add_forget (builder : BarBuilder) (priceTicks qty timestampNs : Int) :
    (builder.forget.add priceTicks qty timestampNs).1.forget =
        (builder.add priceTicks qty timestampNs).1.forget ∧
      (builder.forget.add priceTicks qty timestampNs).2 =
        (builder.add priceTicks qty timestampNs).2 := by
  cases held : builder.current with
  | none => simp [BarBuilder.add, BarBuilder.forget, held, BarBuilder.opened,
      BarBuilder.bucketStart, BarBuilder.widthNs]
  | some bar =>
      by_cases same : builder.bucketStart timestampNs = bar.barOpenNs <;>
        simp_all [BarBuilder.add, BarBuilder.forget, BarBuilder.opened, BarBuilder.bucketStart,
          BarBuilder.widthNs]

theorem BarSet.add_forget (bars : BarSet) (priceTicks qty timestampNs : Int) :
    (bars.forget.add priceTicks qty timestampNs).1.forget =
        (bars.add priceTicks qty timestampNs).1.forget ∧
      (bars.forget.add priceTicks qty timestampNs).2 =
        (bars.add priceTicks qty timestampNs).2 := by
  constructor
  · simp only [BarSet.add, BarSet.forget, mk.injEq, true_and]
    apply Dict.eq_of_entries
    simp only [Dict.entries_mapValues, List.map_map]
    exact List.map_congr_left fun entry _ => by
      simp [(BarBuilder.add_forget entry.2 priceTicks qty timestampNs).1]
  · simp only [BarSet.add, BarSet.forget, Dict.values, Dict.entries_mapValues, List.map_map,
      List.filterMap_map]
    exact List.filterMap_congr fun _ _ => (BarBuilder.add_forget _ priceTicks qty timestampNs).2

/-- What an addition answers, and leaves, is told without what the builders remember. -/
theorem BarSet.add_congr (same : left.forget = right.forget) (priceTicks qty timestampNs : Int) :
    (left.add priceTicks qty timestampNs).1.forget =
        (right.add priceTicks qty timestampNs).1.forget ∧
      (left.add priceTicks qty timestampNs).2 = (right.add priceTicks qty timestampNs).2 := by
  have first := left.add_forget priceTicks qty timestampNs
  have second := right.add_forget priceTicks qty timestampNs
  rw [same] at first
  exact ⟨first.1.symm.trans second.1, first.2.symm.trans second.2⟩

/-! ## Closing what has ended -/

/-- The bars of a set that a forced closing takes, in its order. -/
def BarSet.ended (cutoffNs : Int) (bars : BarSet) : List Bar :=
  bars.builders.entries.filterMap fun entry =>
    if Archive.ArchiveState.hasEnded cutoffNs entry.1 entry.2 then entry.2.flush.2 else none

/-- The set that it leaves. -/
def BarSet.closeEnded (cutoffNs : Int) (bars : BarSet) : BarSet :=
  { bars with
    builders := bars.builders.mapValues fun width builder =>
      if Archive.ArchiveState.hasEnded cutoffNs width builder then builder.flush.1 else builder }

theorem BarSet.ended_forget (cutoffNs : Int) (bars : BarSet) :
    bars.forget.ended cutoffNs = bars.ended cutoffNs := by
  simp only [BarSet.ended, BarSet.forget, Dict.entries_mapValues, List.filterMap_map]
  rfl

theorem BarSet.closeEnded_forget (cutoffNs : Int) (bars : BarSet) :
    (bars.forget.closeEnded cutoffNs).forget = (bars.closeEnded cutoffNs).forget := by
  simp only [BarSet.closeEnded, BarSet.forget, mk.injEq, true_and]
  apply Dict.eq_of_entries
  simp only [Dict.entries_mapValues, List.map_map]
  refine List.map_congr_left fun entry _ => ?_
  have same : Archive.ArchiveState.hasEnded cutoffNs entry.1 entry.2.forget =
      Archive.ArchiveState.hasEnded cutoffNs entry.1 entry.2 := rfl
  simp only [Function.comp_apply, same]
  split <;> rfl

theorem BarSet.ended_congr (same : left.forget = right.forget) (cutoffNs : Int) :
    left.ended cutoffNs = right.ended cutoffNs := by
  rw [← left.ended_forget, same, right.ended_forget]

theorem BarSet.closeEnded_congr (same : left.forget = right.forget) (cutoffNs : Int) :
    (left.closeEnded cutoffNs).forget = (right.closeEnded cutoffNs).forget := by
  rw [← left.closeEnded_forget, same, right.closeEnded_forget]

/-! ## A set that was given trades -/

theorem collect_builders (bars : BarSet) (trades : List Trade) :
    (bars.collect trades).1 =
      { bars with builders := bars.builders.mapValues fun _ builder => builder.addAll trades } := by
  induction trades using List.reverseRecOn with
  | nil =>
      obtain ⟨symbolId, builders⟩ := bars
      exact congrArg (BarSet.mk symbolId) (Dict.eq_of_entries (List.map_id _)).symm
  | append_singleton before trade ih =>
      rw [collect_snoc, ih]
      refine congrArg (BarSet.mk bars.symbolId) (Dict.eq_of_entries ?_)
      simp only [Dict.entries_mapValues, List.map_map]
      exact List.map_congr_left fun entry _ => by simp [addAll_snoc]

theorem get?_new {width : BarWidth} {builder : BarBuilder}
    (found : (BarSet.new symbolId widths).builders.get? width = some builder) :
    builder = .new symbolId width := by
  rw [BarSet.new, get?_foldl_new] at found
  split at found
  · exact (Option.some.inj found).symm
  · cases found

/-- A change of every builder that leaves what another leaves of the new ones. -/
theorem forget_mapValues_collect {change plain : BarWidth → BarBuilder → BarBuilder}
    (ordered : InOrder trades)
    (agree : ∀ width ∈ widths, ∀ builder, Cut symbolId width trades builder →
      (change width builder).forget = (plain width (.new symbolId width)).forget) :
    BarSet.forget
        { ((BarSet.new symbolId widths).collect trades).1 with
          builders := (((BarSet.new symbolId widths).collect trades).1.builders).mapValues change } =
      BarSet.forget
        { BarSet.new symbolId widths with
          builders := (BarSet.new symbolId widths).builders.mapValues plain } := by
  have cuts := new_cuts symbolId widths
  simp only [collect_builders, BarSet.forget, BarSet.mk.injEq, true_and]
  apply Dict.eq_of_entries
  simp only [Dict.entries_mapValues, List.map_map]
  refine List.map_congr_left fun entry member => ?_
  have held := Dict.get?_eq_some_iff.mpr member
  have configured := (cuts.widths entry.1).mpr (Dict.mem_keys_iff.mpr ⟨_, held⟩)
  simp only [Function.comp_apply, get?_new held, agree entry.1 configured _ (addAll_cut ordered)]

/-! ## The end of a unit -/

open Archive

variable {geometry : Geometry} {start cutoffNs : Int} {width : BarWidth} {builder : BarBuilder}
  {bar : Bar}

/-- The open bar of a builder lies in the unit of its trades. -/
theorem Cut.current_unit (cut : Cut symbolId width trades builder)
    (configured : width ∈ geometry.barWidths)
    (inside : ∀ trade ∈ trades, geometry.unitStart trade.timestampNs = start)
    (held : builder.current = some bar) :
    geometry.unitStart bar.barOpenNs = start ∧ start ≤ bar.barOpenNs ∧
      bar.barOpenNs + width * nsPerSecond ≤ start + geometry.flushNs := by
  obtain ⟨trade, member, opens⟩ := cut.traded bar (by simp [held])
  rw [← opens, geometry.unitStart_bucketStart configured, inside trade member]
  refine ⟨rfl, ?_, ?_⟩
  · calc start = geometry.unitStart (width.bucketStart trade.timestampNs) := by
          rw [geometry.unitStart_bucketStart configured, inside trade member]
      _ ≤ width.bucketStart trade.timestampNs :=
          Int.ediv_mul_le _ geometry.flushNs_pos.ne'
  · have ends := geometry.bucket_ends configured trade.timestampNs
    rwa [inside trade member] at ends

variable (inside : ∀ trade ∈ trades, geometry.unitStart trade.timestampNs = start)
include inside

/-- A unit that is over closes every open bar. -/
theorem Cut.hasEnded (cut : Cut symbolId width trades builder)
    (configured : width ∈ geometry.barWidths) (passed : start + geometry.flushNs ≤ cutoffNs) :
    ArchiveState.hasEnded cutoffNs width builder = builder.current.isSome := by
  cases held : builder.current with
  | none => simp [ArchiveState.hasEnded, held]
  | some bar =>
      have ends := (cut.current_unit configured inside held).2.2
      simp only [ArchiveState.hasEnded, held, Option.isSome_some, decide_eq_true_eq]
      omega

/-- A unit that has only begun closes none. -/
theorem Cut.not_hasEnded (cut : Cut symbolId width trades builder)
    (configured : width ∈ geometry.barWidths) (begun : cutoffNs ≤ start) :
    ArchiveState.hasEnded cutoffNs width builder = false := by
  cases held : builder.current with
  | none => simp [ArchiveState.hasEnded, held]
  | some bar =>
      have begins := (cut.current_unit configured inside held).2.1
      have positive : 0 < width.val * nsPerSecond := Int.mul_pos width.property (by decide)
      simp only [ArchiveState.hasEnded, held, decide_eq_false_iff_not]
      omega

variable (ordered : InOrder trades)
include ordered

/-- A forced closing takes the open bars and leaves new builders. -/
theorem closeEnded_over (passed : start + geometry.flushNs ≤ cutoffNs) :
    (((BarSet.new symbolId geometry.barWidths).collect trades).1).ended cutoffNs =
        (((BarSet.new symbolId geometry.barWidths).collect trades).1).currents ∧
      ((((BarSet.new symbolId geometry.barWidths).collect trades).1).closeEnded cutoffNs).forget =
        (BarSet.new symbolId geometry.barWidths).forget := by
  have cuts := @collect_cuts symbolId trades geometry.barWidths ordered
  constructor
  · rw [BarSet.ended, BarSet.currents, Dict.values, List.filterMap_map]
    refine List.filterMap_congr fun entry member => ?_
    have held := Dict.get?_eq_some_iff.mpr member
    have configured := (cuts.widths entry.1).mpr (Dict.mem_keys_iff.mpr ⟨_, held⟩)
    rw [(cuts.cut _ _ held).hasEnded inside configured passed]
    cases current : entry.2.current <;> simp [BarBuilder.flush, current]
  · have plain : (BarSet.new symbolId geometry.barWidths).builders.mapValues
        (fun _ builder => builder) = (BarSet.new symbolId geometry.barWidths).builders :=
      Dict.eq_of_entries (List.map_id _)
    refine (forget_mapValues_collect ordered fun width configured builder cut => ?_).trans
      (congrArg (fun builders => BarSet.forget ⟨symbolId, builders⟩) plain)
    rw [cut.hasEnded inside configured passed]
    cases current : builder.current <;>
      simp [BarBuilder.flush, BarBuilder.forget, BarBuilder.new, current, cut.symbol, cut.seconds]

/-- A trade of a later unit closes the open bars as well, and leaves what it leaves of new
builders. -/
theorem add_over (later : geometry.unitStart trade.timestampNs ≠ start) :
    ((((BarSet.new symbolId geometry.barWidths).collect trades).1).add
        trade.priceTicks trade.qty trade.timestampNs).2 =
        (((BarSet.new symbolId geometry.barWidths).collect trades).1).currents ∧
      ((((BarSet.new symbolId geometry.barWidths).collect trades).1).add
          trade.priceTicks trade.qty trade.timestampNs).1.forget =
        ((BarSet.new symbolId geometry.barWidths).add
          trade.priceTicks trade.qty trade.timestampNs).1.forget := by
  have cuts := @collect_cuts symbolId trades geometry.barWidths ordered
  have moved : ∀ width ∈ geometry.barWidths, ∀ builder, Cut symbolId width trades builder →
      ∀ bar, builder.current = some bar → builder.bucketStart trade.timestampNs ≠ bar.barOpenNs :=
    fun width configured builder cut bar held same => by
      have unit := (cut.current_unit configured inside held).1
      rw [← same, BarBuilder.bucketStart, BarBuilder.widthNs, cut.seconds] at unit
      exact later ((geometry.unitStart_bucketStart configured _).symm.trans unit)
  constructor
  · refine List.filterMap_congr fun builder member => ?_
    obtain ⟨width, held⟩ := Dict.mem_values_iff.mp member
    have configured := (cuts.widths width).mpr (Dict.mem_keys_iff.mpr ⟨_, held⟩)
    have apart := moved width configured builder (cuts.cut width builder held)
    cases current : builder.current with
    | none => simp [BarBuilder.add, current]
    | some bar => simp [BarBuilder.add, current, apart bar current]
  · refine forget_mapValues_collect ordered fun width configured builder cut => ?_
    have apart := moved width configured builder cut
    cases current : builder.current with
    | none =>
        simp [BarBuilder.add, BarBuilder.forget, BarBuilder.new, current, cut.symbol, cut.seconds,
          BarBuilder.opened, BarBuilder.bucketStart, BarBuilder.widthNs]
    | some bar =>
        have closes : builder.add trade.priceTicks trade.qty trade.timestampNs =
            ({ builder with
              current := some (builder.opened trade.priceTicks trade.qty trade.timestampNs)
              closed := builder.closed ++ [bar] }, some bar) := by
          simp only [BarBuilder.add, current]
          exact if_neg (apart bar current)
        rw [closes]
        simp [BarBuilder.add, BarBuilder.forget, BarBuilder.new, cut.symbol, cut.seconds,
          BarBuilder.opened, BarBuilder.bucketStart, BarBuilder.widthNs]

/-- In a unit that has only begun, a forced closing does nothing. -/
theorem closeEnded_begun (begun : cutoffNs ≤ start) :
    (((BarSet.new symbolId geometry.barWidths).collect trades).1).ended cutoffNs = [] ∧
      ((((BarSet.new symbolId geometry.barWidths).collect trades).1).closeEnded cutoffNs) =
        ((BarSet.new symbolId geometry.barWidths).collect trades).1 := by
  have cuts := @collect_cuts symbolId trades geometry.barWidths ordered
  have none : ∀ width builder,
      ((BarSet.new symbolId geometry.barWidths).collect trades).1.builders.get? width =
        some builder → ArchiveState.hasEnded cutoffNs width builder = false :=
    fun width builder held => (cuts.cut width builder held).not_hasEnded inside
      ((cuts.widths width).mpr (Dict.mem_keys_iff.mpr ⟨_, held⟩)) begun
  constructor
  · refine List.filterMap_eq_nil_iff.mpr fun entry member => ?_
    simp [none entry.1 entry.2 (Dict.get?_eq_some_iff.mpr member)]
  · refine congrArg (BarSet.mk _) (Dict.eq_of_entries ?_)
    rw [Dict.entries_mapValues]
    refine (List.map_congr_left fun entry member => ?_).trans (List.map_id _)
    simp [none entry.1 entry.2 (Dict.get?_eq_some_iff.mpr member)]

omit inside ordered

theorem currents_congr (same : left.forget = right.forget) : left.currents = right.currents := by
  have told : ∀ bars : BarSet, bars.forget.currents = bars.currents := fun bars => by
    simp only [BarSet.currents, BarSet.forget, Dict.values, Dict.entries_mapValues, List.map_map,
      List.filterMap_map]
    rfl
  rw [← told left, same, told right]

theorem collect_congr (same : left.forget = right.forget) (trades : List Trade) :
    (left.collect trades).1.forget = (right.collect trades).1.forget ∧
      (left.collect trades).2 = (right.collect trades).2 := by
  induction trades using List.reverseRecOn with
  | nil => exact ⟨same, rfl⟩
  | append_singleton before trade ih =>
      have step := BarSet.add_congr ih.1 trade.priceTicks trade.qty trade.timestampNs
      simp only [collect_snoc]
      exact ⟨step.1, by rw [ih.2, step.2]⟩

theorem collect_append (bars : BarSet) (first second : List Trade) :
    bars.collect (first ++ second) = (((bars.collect first).1.collect second).1,
      (bars.collect first).2 ++ ((bars.collect first).1.collect second).2) := by
  induction second using List.reverseRecOn with
  | nil => simp [BarSet.collect]
  | append_singleton before trade ih =>
      rw [← List.append_assoc, collect_snoc, ih, collect_snoc, List.append_assoc]

theorem currents_new (symbolId : Int) (widths : List BarWidth) :
    (BarSet.new symbolId widths).currents = [] := by
  refine List.filterMap_eq_nil_iff.mpr fun builder member => ?_
  obtain ⟨width, held⟩ := Dict.mem_values_iff.mp member
  rw [get?_new held]
  rfl

/-- Only an open bar is closed by a trade. -/
theorem mem_currents_of_add {priceTicks qty timestampNs : Int} {bar : Bar}
    (closed : bar ∈ (bars.add priceTicks qty timestampNs).2) : bar ∈ bars.currents := by
  obtain ⟨builder, held, answer⟩ := List.mem_filterMap.mp closed
  exact List.mem_filterMap.mpr ⟨builder, held, add_answer answer⟩

/-- Each open bar is its builder's, which stands as a new one after the trades. -/
theorem mem_currents (standing : bars.forget =
      ((BarSet.new symbolId geometry.barWidths).collect trades).1.forget)
    (ordered : InOrder trades) {bar : Bar} (member : bar ∈ bars.currents) :
    ∃ width ∈ geometry.barWidths, ∃ builder, Cut symbolId width trades builder ∧
      builder.current = some bar := by
  have cuts := @collect_cuts symbolId trades geometry.barWidths ordered
  rw [currents_congr standing] at member
  obtain ⟨builder, held, answer⟩ := List.mem_filterMap.mp member
  obtain ⟨width, found⟩ := Dict.mem_values_iff.mp held
  exact ⟨width, (cuts.widths width).mpr (Dict.mem_keys_iff.mpr ⟨_, found⟩), builder,
    cuts.cut width builder found, answer⟩

theorem currents_symbol (standing : bars.forget =
      ((BarSet.new symbolId geometry.barWidths).collect trades).1.forget)
    (ordered : InOrder trades) : ∀ bar ∈ bars.currents, bar.symbolId = symbolId := by
  intro bar member
  obtain ⟨width, -, builder, cut, current⟩ := mem_currents standing ordered member
  exact (cut.own bar (by simp [current])).1

theorem currents_unit (standing : bars.forget =
      ((BarSet.new symbolId geometry.barWidths).collect trades).1.forget)
    (ordered : InOrder trades)
    (inside : ∀ trade ∈ trades, geometry.unitStart trade.timestampNs = start) :
    ∀ bar ∈ bars.currents, geometry.unitStart bar.barOpenNs = start := by
  intro bar member
  obtain ⟨width, configured, builder, cut, current⟩ := mem_currents standing ordered member
  exact (cut.current_unit configured inside current).1

theorem mem_currents_of_ended {bar : Bar} (closed : bar ∈ bars.ended cutoffNs) :
    bar ∈ bars.currents := by
  obtain ⟨entry, held, taken⟩ := List.mem_filterMap.mp closed
  split at taken
  · exact List.mem_filterMap.mpr ⟨entry.2, List.mem_map_of_mem held, taken⟩
  · cases taken

theorem closeEnded_new (symbolId cutoffNs : Int) (geometry : Geometry) :
    (BarSet.new symbolId geometry.barWidths).ended cutoffNs = [] ∧
      (BarSet.new symbolId geometry.barWidths).closeEnded cutoffNs =
        BarSet.new symbolId geometry.barWidths :=
  @closeEnded_begun symbolId [] geometry cutoffNs cutoffNs (by simp) List.Pairwise.nil (le_refl _)

/-- Between two units: what the first trade of the later one closes and what is closed by force
are together the open bars of the earlier one, and the builders go on as new ones would. -/
theorem turn_over {later : List Trade} {laterStart : Int}
    (standing : bars.forget = ((BarSet.new symbolId geometry.barWidths).collect trades).1.forget)
    (ordered : InOrder trades)
    (inside : ∀ trade ∈ trades, geometry.unitStart trade.timestampNs = start)
    (beyond : ∀ trade ∈ later, geometry.unitStart trade.timestampNs = laterStart)
    (apart : start + geometry.flushNs ≤ laterStart) (few : later.length ≤ 1) :
    (bars.collect later).2 ++ (bars.collect later).1.ended laterStart =
        ((BarSet.new symbolId geometry.barWidths).collect trades).1.currents ∧
      ((bars.collect later).1.closeEnded laterStart).forget =
        ((BarSet.new symbolId geometry.barWidths).collect later).1.forget := by
  match later, few with
  | [], _ =>
      have passed := @closeEnded_over symbolId trades geometry start laterStart inside ordered apart
      exact ⟨(BarSet.ended_congr standing _).trans passed.1,
        (BarSet.closeEnded_congr standing _).trans passed.2⟩
  | [trade], _ =>
      have positive := geometry.flushNs_pos
      have unit := beyond trade List.mem_cons_self
      have passed := @add_over symbolId trades trade geometry start inside ordered (by omega)
      have step := BarSet.add_congr standing trade.priceTicks trade.qty trade.timestampNs
      have left := step.1.trans passed.2
      have alone : InOrder [trade] := List.pairwise_singleton _ _
      have begun := @closeEnded_begun symbolId [trade] geometry laterStart laterStart
        (by simpa using unit) alone (le_refl _)
      have one : ∀ set : BarSet, set.collect [trade] =
          set.add trade.priceTicks trade.qty trade.timestampNs := fun set => rfl
      rw [one] at begun
      rw [one, one, step.2, passed.1, BarSet.ended_congr left, begun.1, List.append_nil]
      exact ⟨rfl, (BarSet.closeEnded_congr left _).trans (congrArg _ begun.2)⟩

end QuantArena.Fanout
