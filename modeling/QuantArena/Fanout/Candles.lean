import Mathlib.Data.List.Induction
import QuantArena.Fanout.Bars

/-! The bars that a run of trades of one symbol is cut into: in every bucket of a
configured width that holds a trade there is one, and it is the bucket's own. -/

set_option autoImplicit false

namespace QuantArena.Fanout

open Foundations

/-- Where the bucket of a moment starts. -/
def BarWidth.bucketStart (width : BarWidth) (timestampNs : Int) : Int :=
  timestampNs / (width * nsPerSecond) * (width * nsPerSecond)

/-- The bar of one bucket's trades, if it holds any. -/
def barOf (symbolId : Int) (width : BarWidth) (openNs : Int) : List Trade → Option Bar
  | [] => none
  | first :: rest => some
      { symbolId
        bucketSeconds := width
        barOpenNs := openNs
        openTicks := first.priceTicks
        highTicks := (rest.map (·.priceTicks)).foldl max first.priceTicks
        lowTicks := (rest.map (·.priceTicks)).foldl min first.priceTicks
        closeTicks := (rest.getLast?.getD first).priceTicks
        volume := ((first :: rest).map (·.qty)).sum }

/-- Trades of one moment after another. -/
def InOrder (trades : List Trade) : Prop :=
  trades.Pairwise fun early late => early.timestampNs ≤ late.timestampNs

/-- Every trade folded in, one after the other. -/
def BarBuilder.addAll (builder : BarBuilder) (trades : List Trade) : BarBuilder :=
  trades.foldl (fun builder trade =>
    (builder.add trade.priceTicks trade.qty trade.timestampNs).1) builder

/-- Every trade folded into every width, with the bars that closed on the way. -/
def BarSet.collect (bars : BarSet) (trades : List Trade) : BarSet × List Bar :=
  trades.foldl (fun collected trade =>
    let (bars, closed) := collected.1.add trade.priceTicks trade.qty trade.timestampNs
    (bars, collected.2 ++ closed)) (bars, [])

/-- The bars that are still open, in the order of the widths. -/
def BarSet.currents (bars : BarSet) : List Bar := bars.builders.values.filterMap (·.current)

/-- The rows of one symbol's trades, once nothing can join them. -/
def barsOf (widths : List BarWidth) (symbolId : Int) (trades : List Trade) : List Bar :=
  ((BarSet.new symbolId widths).collect trades).2 ++
    ((BarSet.new symbolId widths).collect trades).1.currents

/-- The bars of one width: those that closed on the way, then the open one. -/
def candles (widths : List BarWidth) (symbolId : Int) (trades : List Trade) (width : BarWidth) :
    List Bar :=
  ((BarSet.new symbolId widths).collect trades).2.filter (fun bar => bar.bucketSeconds = width.val) ++
    ((((BarSet.new symbolId widths).collect trades).1.builders.get? width).bind (·.current)).toList

variable {symbolId : Int} {width : BarWidth} {trades : List Trade} {trade : Trade}

/-! ## One width -/

theorem barOf_snoc (openNs : Int) (trades : List Trade) (trade : Trade) :
    barOf symbolId width openNs (trades ++ [trade]) =
      some (match barOf symbolId width openNs trades with
        | some bar => bar.extend trade.priceTicks trade.qty
        | none => ⟨symbolId, width, openNs, trade.priceTicks, trade.priceTicks, trade.priceTicks,
            trade.priceTicks, trade.qty⟩) := by
  cases trades with
  | nil => simp [barOf]
  | cons first rest => simp [barOf, Bar.extend, add_assoc]

theorem addAll_snoc (builder : BarBuilder) (trades : List Trade) (trade : Trade) :
    builder.addAll (trades ++ [trade]) =
      ((builder.addAll trades).add trade.priceTicks trade.qty trade.timestampNs).1 := by
  simp [BarBuilder.addAll]

theorem bucketStart_mono {early late : Int} (before : early ≤ late) :
    width.bucketStart early ≤ width.bucketStart late := by
  have positive : 0 < width.val * nsPerSecond := Int.mul_pos width.property (by decide)
  exact Int.mul_le_mul_of_nonneg_right (Int.ediv_le_ediv positive before) positive.le

/-- How a builder of one width stands after some trades: what it cut, and what is open. -/
structure Cut (symbolId : Int) (width : BarWidth) (trades : List Trade) (builder : BarBuilder) :
    Prop where
  symbol : builder.symbolId = symbolId
  seconds : builder.bucketSeconds = width
  /-- The open bar is the last trade's. -/
  current : builder.current.map (·.barOpenNs) =
    trades.getLast?.map fun trade => width.bucketStart trade.timestampNs
  own : ∀ bar ∈ builder.closed ++ builder.current.toList,
    bar.symbolId = symbolId ∧ bar.bucketSeconds = width
  bars : ∀ bucket, (builder.closed ++ builder.current.toList).filter (·.barOpenNs = bucket) =
    (barOf symbolId width bucket
      (trades.filter fun trade => width.bucketStart trade.timestampNs = bucket)).toList
  ascending : (builder.closed ++ builder.current.toList).Pairwise fun early late =>
    early.barOpenNs < late.barOpenNs

theorem new_cut (symbolId : Int) (width : BarWidth) : Cut symbolId width [] (.new symbolId width) where
  symbol := rfl
  seconds := rfl
  current := rfl
  own := by simp [BarBuilder.new]
  bars := fun bucket => by simp [BarBuilder.new, barOf]
  ascending := List.Pairwise.nil

/-- The bucket of a later trade is the last trade's, or holds none of the earlier ones. -/
theorem bucket_cases (ordered : InOrder (trades ++ [trade])) {bar : Int}
    (last : trades.getLast?.map (fun trade => width.bucketStart trade.timestampNs) = some bar)
    (moved : width.bucketStart trade.timestampNs ≠ bar) :
    trades.filter (fun earlier => width.bucketStart earlier.timestampNs =
      width.bucketStart trade.timestampNs) = [] := by
  obtain ⟨newest, found, rfl⟩ := Option.map_eq_some_iff.mp last
  obtain ⟨before, rfl⟩ := List.getLast?_eq_some_iff.mp found
  obtain ⟨inner, -, late⟩ := List.pairwise_append.mp ordered
  have step : width.bucketStart newest.timestampNs ≤ width.bucketStart trade.timestampNs :=
    bucketStart_mono (late newest (by simp) trade List.mem_cons_self)
  refine List.filter_eq_nil_iff.mpr fun earlier member => ?_
  have early : width.bucketStart earlier.timestampNs ≤ width.bucketStart newest.timestampNs := by
    cases List.mem_append.mp member with
    | inl old =>
        exact bucketStart_mono ((List.pairwise_append.mp inner).2.2 earlier old newest (by simp))
    | inr same => rw [List.mem_singleton.mp same]
  simp only [decide_eq_true_eq]
  omega

theorem filter_bucket_snoc (trades : List Trade) (trade : Trade) (bucket : Int) :
    (trades ++ [trade]).filter (fun trade => width.bucketStart trade.timestampNs = bucket) =
      trades.filter (fun trade => width.bucketStart trade.timestampNs = bucket) ++
        if width.bucketStart trade.timestampNs = bucket then [trade] else [] := by
  rw [List.filter_append, List.filter_singleton]
  simp

/-- One more bar, in a bucket that had none. -/
theorem bars_snoc {all : List Bar} {opened : Bar}
    (bars : ∀ bucket, all.filter (·.barOpenNs = bucket) = (barOf symbolId width bucket
      (trades.filter fun trade => width.bucketStart trade.timestampNs = bucket)).toList)
    (opens : opened = ⟨symbolId, width, width.bucketStart trade.timestampNs, trade.priceTicks,
      trade.priceTicks, trade.priceTicks, trade.priceTicks, trade.qty⟩)
    (fresh : trades.filter (fun earlier => width.bucketStart earlier.timestampNs =
      width.bucketStart trade.timestampNs) = []) (bucket : Int) :
    (all ++ [opened]).filter (·.barOpenNs = bucket) = (barOf symbolId width bucket
      ((trades ++ [trade]).filter fun trade =>
        width.bucketStart trade.timestampNs = bucket)).toList := by
  rw [List.filter_append, bars bucket, filter_bucket_snoc, List.filter_singleton, opens]
  by_cases here : width.bucketStart trade.timestampNs = bucket
  · cases here
    simp [fresh, barOf]
  · simp [here]

/-- The bar of the last bucket grows. -/
theorem bars_extend {closed : List Bar} {bar : Bar}
    (bars : ∀ bucket, (closed ++ [bar]).filter (·.barOpenNs = bucket) =
      (barOf symbolId width bucket
        (trades.filter fun trade => width.bucketStart trade.timestampNs = bucket)).toList)
    (same : width.bucketStart trade.timestampNs = bar.barOpenNs) (bucket : Int) :
    (closed ++ [bar.extend trade.priceTicks trade.qty]).filter (·.barOpenNs = bucket) =
      (barOf symbolId width bucket
        ((trades ++ [trade]).filter fun trade =>
          width.bucketStart trade.timestampNs = bucket)).toList := by
  have before := bars bucket
  rw [List.filter_append, List.filter_singleton] at before ⊢
  rw [filter_bucket_snoc, same]
  have kept : (bar.extend trade.priceTicks trade.qty).barOpenNs = bar.barOpenNs := rfl
  by_cases here : bar.barOpenNs = bucket
  · simp only [kept, here, decide_true, cond_true, if_true, barOf_snoc] at before ⊢
    cases found : barOf symbolId width bucket
        (trades.filter fun trade => width.bucketStart trade.timestampNs = bucket) with
    | none => simp [found] at before
    | some only =>
        simp only [found, Option.toList_some, List.append_eq_singleton_iff] at before
        obtain ⟨none, same⟩ : closed.filter (·.barOpenNs = bucket) = [] ∧ bar = only := by
          simpa using before
        simp [none, same]
  · simpa [kept, here] using before

/-- A bar is cut only where a trade fell. -/
theorem Cut.traded {builder : BarBuilder} (cut : Cut symbolId width trades builder) :
    ∀ bar ∈ builder.closed ++ builder.current.toList,
      ∃ trade ∈ trades, width.bucketStart trade.timestampNs = bar.barOpenNs := by
  intro bar member
  have inside : bar ∈ (barOf symbolId width bar.barOpenNs
      (trades.filter fun trade => width.bucketStart trade.timestampNs = bar.barOpenNs)).toList :=
    cut.bars bar.barOpenNs ▸ List.mem_filter.mpr ⟨member, by simp⟩
  cases found : trades.filter fun trade => width.bucketStart trade.timestampNs = bar.barOpenNs with
  | nil => simp [found, barOf] at inside
  | cons first rest =>
      have member : first ∈ trades.filter fun trade =>
          width.bucketStart trade.timestampNs = bar.barOpenNs := found ▸ List.mem_cons_self
      exact ⟨first, (List.mem_filter.mp member).1, by simpa using (List.mem_filter.mp member).2⟩

/-- The bars of one width come in the order of their buckets. -/
theorem Cut.ascends {builder : BarBuilder} (cut : Cut symbolId width trades builder)
    (ordered : InOrder (trades ++ [trade])) :
    ((builder.add trade.priceTicks trade.qty trade.timestampNs).1.closed ++
      (builder.add trade.priceTicks trade.qty trade.timestampNs).1.current.toList).Pairwise
        fun early late => early.barOpenNs < late.barOpenNs := by
  have bucket : builder.bucketStart trade.timestampNs = width.bucketStart trade.timestampNs := by
    simp only [BarBuilder.bucketStart, BarWidth.bucketStart, BarBuilder.widthNs, cut.seconds]
  have later : ∀ bar ∈ builder.closed ++ builder.current.toList,
      bar.barOpenNs ≤ width.bucketStart trade.timestampNs := by
    intro bar member
    obtain ⟨earlier, inside, opened⟩ := cut.traded bar member
    exact opened ▸ bucketStart_mono
      ((List.pairwise_append.mp ordered).2.2 earlier inside trade List.mem_cons_self)
  have ascending := cut.ascending
  cases held : builder.current with
  | none =>
      have none : builder.closed = [] := by
        have empty : trades = [] := by simpa [held] using cut.current
        cases closed : builder.closed with
        | nil => rfl
        | cons bar rest =>
            obtain ⟨earlier, inside, -⟩ := cut.traded bar (by simp [closed])
            simp [empty] at inside
      simp [BarBuilder.add, held, none]
  | some bar =>
      rw [held] at ascending later
      by_cases same : width.bucketStart trade.timestampNs = bar.barOpenNs
      · simp only [BarBuilder.add, held, bucket, same, if_true]
        obtain ⟨closed, -, last⟩ := List.pairwise_append.mp ascending
        refine List.pairwise_append.mpr ⟨closed, List.pairwise_singleton _ _, ?_⟩
        intro early member late only
        rw [List.mem_singleton.mp only]
        exact last early member bar (by simp)
      · simp only [BarBuilder.add, held, bucket, same, if_false]
        refine List.pairwise_append.mpr ⟨ascending, List.pairwise_singleton _ _, ?_⟩
        intro early member late only
        rw [List.mem_singleton.mp only]
        have opened : (builder.opened trade.priceTicks trade.qty trade.timestampNs).barOpenNs =
            width.bucketStart trade.timestampNs := bucket
        rw [opened]
        refine lt_of_le_of_ne (later early member) fun equal => ?_
        have fresh := bucket_cases ordered (cut.current.symm.trans (by rw [held]; rfl)) same
        obtain ⟨earlier, inside, own⟩ := cut.traded early (by rw [held]; exact member)
        have shown := List.filter_eq_nil_iff.mp fresh earlier inside
        exact shown (by simpa [equal] using own)

theorem Cut.add {builder : BarBuilder} (cut : Cut symbolId width trades builder)
    (ordered : InOrder (trades ++ [trade])) :
    Cut symbolId width (trades ++ [trade])
      (builder.add trade.priceTicks trade.qty trade.timestampNs).1 := by
  have ascends := cut.ascends ordered
  have bucket_eq : ∀ timestampNs, builder.bucketStart timestampNs = width.bucketStart timestampNs :=
    fun timestampNs => by
      simp only [BarBuilder.bucketStart, BarWidth.bucketStart, BarBuilder.widthNs, cut.seconds]
  have opens : builder.opened trade.priceTicks trade.qty trade.timestampNs =
      ⟨symbolId, width, width.bucketStart trade.timestampNs, trade.priceTicks, trade.priceTicks,
        trade.priceTicks, trade.priceTicks, trade.qty⟩ := by
    simp only [BarBuilder.opened, bucket_eq, cut.symbol, cut.seconds]
  have current := cut.current
  have own := cut.own
  have bars := cut.bars
  cases held : builder.current with
  | none =>
      have empty : trades = [] := by simpa [held] using current
      simp only [held, Option.toList_none, List.append_nil] at bars own
      simp only [BarBuilder.add, held] at ascends ⊢
      refine ⟨cut.symbol, cut.seconds, by simp [opens], ?_, ?_, ascends⟩
      · intro bar member
        cases List.mem_append.mp member with
        | inl old => exact own bar old
        | inr new => simp [List.mem_singleton.mp new, opens]
      · exact bars_snoc bars opens (by simp [empty])
  | some bar =>
      simp only [held, Option.map_some, Option.toList_some] at current bars own
      by_cases same : width.bucketStart trade.timestampNs = bar.barOpenNs
      · simp only [BarBuilder.add, held, bucket_eq, same, if_true] at ascends ⊢
        refine ⟨cut.symbol, cut.seconds, by simp [same, Bar.extend], ?_, bars_extend bars same,
          ascends⟩
        intro other member
        cases List.mem_append.mp member with
        | inl old => exact own other (List.mem_append_left _ old)
        | inr new =>
            have kept := own bar (by simp)
            simpa [List.mem_singleton.mp new, Bar.extend] using kept
      · simp only [BarBuilder.add, held, bucket_eq, same, if_false] at ascends ⊢
        refine ⟨cut.symbol, cut.seconds, by simp [opens], ?_, ?_, ascends⟩
        · intro other member
          cases List.mem_append.mp member with
          | inl old => exact own other old
          | inr new => simp [List.mem_singleton.mp new, opens]
        · exact bars_snoc bars opens (bucket_cases ordered current.symm same)

theorem addAll_cut (ordered : InOrder trades) :
    Cut symbolId width trades ((BarBuilder.new symbolId width).addAll trades) := by
  induction trades using List.reverseRecOn with
  | nil => exact new_cut symbolId width
  | append_singleton before trade ih =>
      rw [addAll_snoc]
      exact (ih (List.pairwise_append.mp ordered).1).add ordered

theorem bucketStart_le (timestampNs : Int) :
    width.bucketStart timestampNs ≤ timestampNs ∧
      timestampNs < width.bucketStart timestampNs + width.val * nsPerSecond := by
  have positive : 0 < width.val * nsPerSecond := Int.mul_pos width.property (by decide)
  have split := Int.emod_add_ediv_mul timestampNs (width.val * nsPerSecond)
  have lower := Int.emod_nonneg timestampNs positive.ne'
  have upper := Int.emod_lt_of_pos timestampNs positive
  unfold BarWidth.bucketStart
  omega

/-- Two buckets that share a moment are one. -/
theorem bucketStart_eq {first second : Int}
    (lower : width.bucketStart first ≤ second)
    (upper : second < width.bucketStart first + width.val * nsPerSecond) :
    width.bucketStart second = width.bucketStart first := by
  have positive : 0 < width.val * nsPerSecond := Int.mul_pos width.property (by decide)
  have bucket : second / (width.val * nsPerSecond) = first / (width.val * nsPerSecond) := by
    exact (Int.ediv_eq_iff_of_pos positive).mpr ⟨lower, upper⟩
  simp only [BarWidth.bucketStart, bucket]

/-! ## Every width -/

theorem collect_snoc (bars : BarSet) (trades : List Trade) (trade : Trade) :
    bars.collect (trades ++ [trade]) =
      (((bars.collect trades).1.add trade.priceTicks trade.qty trade.timestampNs).1,
        (bars.collect trades).2 ++
          ((bars.collect trades).1.add trade.priceTicks trade.qty trade.timestampNs).2) := by
  simp [BarSet.collect]

/-- A set whose builders have each been given the same trades. -/
structure BarSet.Cuts (symbolId : Int) (widths : List BarWidth) (trades : List Trade)
    (bars : BarSet) : Prop where
  symbol : bars.symbolId = symbolId
  widths : ∀ width, width ∈ widths ↔ width ∈ bars.builders.keys
  cut : ∀ width builder, bars.builders.get? width = some builder →
    Cut symbolId width trades builder

theorem get?_foldl_new (symbolId : Int) (widths : List BarWidth)
    (builders : Dict BarWidth BarBuilder) (width : BarWidth) :
    (widths.foldl (fun builders width => builders.set width (.new symbolId width))
      builders).get? width =
      if width ∈ widths then some (.new symbolId width) else builders.get? width := by
  induction widths generalizing builders with
  | nil => rfl
  | cons first rest ih =>
      rw [List.foldl_cons, ih, Dict.get?_set]
      by_cases later : width ∈ rest <;> by_cases here : width = first <;> simp_all

theorem new_cuts (symbolId : Int) (widths : List BarWidth) :
    (BarSet.new symbolId widths).Cuts symbolId widths [] where
  symbol := rfl
  widths := fun width => by
    rw [Dict.mem_keys_iff, BarSet.new, get?_foldl_new]
    split <;> simp_all
  cut := fun width builder found => by
    rw [BarSet.new, get?_foldl_new] at found
    split at found
    · cases found
      exact new_cut symbolId width
    · cases found

variable {widths : List BarWidth} {bars : BarSet}

theorem BarSet.Cuts.add (cuts : bars.Cuts symbolId widths trades)
    (ordered : InOrder (trades ++ [trade])) :
    (bars.add trade.priceTicks trade.qty trade.timestampNs).1.Cuts symbolId widths
      (trades ++ [trade]) where
  symbol := cuts.symbol
  widths := fun width => by
    rw [cuts.widths, Dict.mem_keys_iff, Dict.mem_keys_iff]
    simp only [BarSet.add, Dict.get?_mapValues]
    cases bars.builders.get? width <;> simp
  cut := fun width builder found => by
    simp only [BarSet.add, Dict.get?_mapValues] at found
    obtain ⟨before, held, rfl⟩ := Option.map_eq_some_iff.mp found
    exact (cuts.cut width before held).add ordered

theorem collect_cuts (ordered : InOrder trades) :
    ((BarSet.new symbolId widths).collect trades).1.Cuts symbolId widths trades := by
  induction trades using List.reverseRecOn with
  | nil => exact new_cuts symbolId widths
  | append_singleton before trade ih =>
      rw [collect_snoc]
      exact (ih (List.pairwise_append.mp ordered).1).add ordered

/-- The rows that one width gives, among those that all of them give. -/
theorem filter_width (give : BarBuilder → Option Bar)
    (own : ∀ width builder, bars.builders.get? width = some builder →
      ∀ bar ∈ give builder, bar.bucketSeconds = width) {width : BarWidth} {builder : BarBuilder}
    (found : bars.builders.get? width = some builder) :
    (bars.builders.values.filterMap give).filter (fun bar => bar.bucketSeconds = width.val) =
      (give builder).toList := by
  have shape : bars.builders.values.filterMap give =
      bars.builders.entries.flatMap fun entry => (give entry.2).toList := by
    rw [Dict.values, List.filterMap_map, List.filterMap_eq_flatMap_toList]
    rfl
  have tagged : ∀ entry ∈ bars.builders.entries, ∀ bar ∈ (give entry.2).toList,
      bar.bucketSeconds = entry.1.val := fun entry member bar inside =>
    own entry.1 entry.2 (Dict.get?_eq_some_iff.mpr member) bar (by simpa using inside)
  rw [shape, Dict.filter_flatMap Subtype.val_injective tagged, found]
  rfl

theorem add_closed (builder : BarBuilder) (priceTicks qty timestampNs : Int) :
    (builder.add priceTicks qty timestampNs).1.closed =
      builder.closed ++ (builder.add priceTicks qty timestampNs).2.toList := by
  unfold BarBuilder.add
  split
  · split <;> simp
  · simp

theorem add_answer {builder : BarBuilder} {priceTicks qty timestampNs : Int} {bar : Bar}
    (answer : (builder.add priceTicks qty timestampNs).2 = some bar) :
    builder.current = some bar := by
  unfold BarBuilder.add at answer
  split at answer
  · split at answer
    · cases answer
    · cases answer
      assumption
  · cases answer

theorem collect_closed (ordered : InOrder trades) {width : BarWidth} {builder : BarBuilder}
    (found : ((BarSet.new symbolId widths).collect trades).1.builders.get? width = some builder) :
    ((BarSet.new symbolId widths).collect trades).2.filter (fun bar => bar.bucketSeconds = width.val) =
      builder.closed := by
  induction trades using List.reverseRecOn generalizing builder with
  | nil =>
      rw [BarSet.collect, List.foldl_nil, BarSet.new, get?_foldl_new] at found
      split at found
      · cases found
        rfl
      · cases found
  | append_singleton before trade ih =>
      have earlier := (List.pairwise_append.mp ordered).1
      have cuts := @collect_cuts symbolId before widths earlier
      rw [collect_snoc] at found ⊢
      simp only [BarSet.add, Dict.get?_mapValues] at found
      obtain ⟨old, held, rfl⟩ := Option.map_eq_some_iff.mp found
      rw [List.filter_append, ih earlier held, add_closed]
      congr 1
      refine filter_width _ (fun width builder held bar answer => ?_) held
      exact ((cuts.cut width builder held).own bar (by simp [add_answer answer])).2

/-- In every bucket of a configured width that holds a trade there is one row, and it is the
bar of the bucket's own trades. -/
theorem barsOf_bucket (ordered : InOrder trades) {width : BarWidth} (configured : width ∈ widths)
    (bucket : Int) :
    (barsOf widths symbolId trades).filter
        (fun bar => bar.bucketSeconds = width.val ∧ bar.barOpenNs = bucket) =
      (barOf symbolId width bucket
        (trades.filter fun trade => width.bucketStart trade.timestampNs = bucket)).toList := by
  have cuts := @collect_cuts symbolId trades widths ordered
  obtain ⟨builder, found⟩ := Dict.mem_keys_iff.mp ((cuts.widths width).mp configured)
  have cut := cuts.cut width builder found
  have both : (barsOf widths symbolId trades).filter (fun bar => bar.bucketSeconds = width.val) =
      builder.closed ++ builder.current.toList := by
    rw [barsOf, List.filter_append, collect_closed ordered found, BarSet.currents,
      filter_width _ (fun width builder held bar inside => ?_) found]
    exact ((cuts.cut width builder held).own bar (by simp [Option.mem_def.mp inside])).2
  rw [← cut.bars bucket, ← both, List.filter_filter]
  exact List.filter_congr fun bar _ => by simp [Bool.and_comm]

theorem collect_own (ordered : InOrder trades) :
    ∀ bar ∈ ((BarSet.new symbolId widths).collect trades).2,
      bar.symbolId = symbolId ∧ ∃ width ∈ widths, bar.bucketSeconds = width.val := by
  induction trades using List.reverseRecOn with
  | nil => simp [BarSet.collect]
  | append_singleton before trade ih =>
      have earlier := (List.pairwise_append.mp ordered).1
      have cuts := @collect_cuts symbolId before widths earlier
      intro bar member
      rw [collect_snoc] at member
      cases List.mem_append.mp member with
      | inl old => exact ih earlier bar old
      | inr new =>
          obtain ⟨builder, held, answer⟩ := List.mem_filterMap.mp new
          obtain ⟨width, found⟩ := Dict.mem_values_iff.mp held
          have own := (cuts.cut width builder found).own bar (by simp [add_answer answer])
          exact ⟨own.1, width, (cuts.widths width).mpr (Dict.mem_keys_iff.mpr ⟨_, found⟩), own.2⟩

/-- Every row is the symbol's, and of a configured width. -/
theorem barsOf_own (ordered : InOrder trades) :
    ∀ bar ∈ barsOf widths symbolId trades,
      bar.symbolId = symbolId ∧ ∃ width ∈ widths, bar.bucketSeconds = width.val := by
  have cuts := @collect_cuts symbolId trades widths ordered
  intro bar member
  cases List.mem_append.mp member with
  | inl closed => exact collect_own ordered bar closed
  | inr current =>
      obtain ⟨builder, held, answer⟩ := List.mem_filterMap.mp current
      obtain ⟨width, found⟩ := Dict.mem_values_iff.mp held
      have own := (cuts.cut width builder found).own bar (by simp [answer])
      exact ⟨own.1, width, (cuts.widths width).mpr (Dict.mem_keys_iff.mpr ⟨_, found⟩), own.2⟩

/-- The builder of a configured width, under the bars that the set shows for it. -/
theorem candles_cut (ordered : InOrder trades) {width : BarWidth} (configured : width ∈ widths) :
    ∃ builder, Cut symbolId width trades builder ∧
      candles widths symbolId trades width = builder.closed ++ builder.current.toList := by
  have cuts := @collect_cuts symbolId trades widths ordered
  obtain ⟨builder, found⟩ := Dict.mem_keys_iff.mp ((cuts.widths width).mp configured)
  refine ⟨builder, cuts.cut width builder found, ?_⟩
  rw [candles, collect_closed ordered found, found, Option.bind_some]

/-- Every width cuts the trades into bars, one for each bucket that holds one. -/
theorem candles_partition (ordered : InOrder trades) {width : BarWidth}
    (configured : width ∈ widths) :
    ((candles widths symbolId trades width).Pairwise fun early late =>
        early.barOpenNs < late.barOpenNs) ∧
      (∀ bucket, (candles widths symbolId trades width).filter (·.barOpenNs = bucket) =
        (barOf symbolId width bucket
          (trades.filter fun trade => width.bucketStart trade.timestampNs = bucket)).toList) ∧
      (∀ bar ∈ candles widths symbolId trades width, bar.symbolId = symbolId ∧
        bar.bucketSeconds = width ∧
          ∃ trade ∈ trades, width.bucketStart trade.timestampNs = bar.barOpenNs) ∧
      ∀ trade ∈ trades, ∃! bar, bar ∈ candles widths symbolId trades width ∧
        bar.barOpenNs ≤ trade.timestampNs ∧
          trade.timestampNs < bar.barOpenNs + width.val * nsPerSecond := by
  obtain ⟨builder, cut, same⟩ := @candles_cut symbolId trades widths ordered width configured
  rw [same]
  refine ⟨cut.ascending, cut.bars, fun bar member =>
    ⟨(cut.own bar member).1, (cut.own bar member).2, cut.traded bar member⟩, ?_⟩
  intro trade member
  have bars := cut.bars (width.bucketStart trade.timestampNs)
  obtain ⟨bar, only⟩ : ∃ bar, barOf symbolId width (width.bucketStart trade.timestampNs)
      (trades.filter fun other => width.bucketStart other.timestampNs =
        width.bucketStart trade.timestampNs) = some bar := by
    cases own : trades.filter fun other => width.bucketStart other.timestampNs =
        width.bucketStart trade.timestampNs with
    | nil => simpa using List.filter_eq_nil_iff.mp own trade member
    | cons first rest => exact ⟨_, rfl⟩
  rw [only, Option.toList_some] at bars
  obtain ⟨inside, opened⟩ := List.mem_filter.mp
    (show bar ∈ (builder.closed ++ builder.current.toList).filter _ from bars ▸ List.mem_cons_self)
  have opened : bar.barOpenNs = width.bucketStart trade.timestampNs := by simpa using opened
  refine ⟨bar, ⟨inside, opened ▸ bucketStart_le trade.timestampNs⟩, ?_⟩
  intro other held
  obtain ⟨kept, lower, upper⟩ := held
  obtain ⟨earlier, -, own⟩ := cut.traded other kept
  have bucket : width.bucketStart trade.timestampNs = other.barOpenNs :=
    (bucketStart_eq (own ▸ lower) (own ▸ upper)).trans own
  have found : other ∈ (builder.closed ++ builder.current.toList).filter
      (·.barOpenNs = width.bucketStart trade.timestampNs) :=
    List.mem_filter.mpr ⟨kept, by simpa using bucket.symm⟩
  rw [bars] at found
  exact List.mem_singleton.mp found

theorem candles_partition_edge :
    ∃! bar, bar ∈ candles [⟨1, by decide⟩, ⟨60, by decide⟩] 1
        [⟨1, 100, 5, 1, 59999999999, toLex (1, 0)⟩, ⟨1, 90, 2, 1, 60000000000, toLex (1, 1)⟩]
        ⟨60, by decide⟩ ∧
      bar.barOpenNs ≤ 60000000000 ∧ 60000000000 < bar.barOpenNs + 60 * nsPerSecond :=
  (candles_partition (by simp [InOrder]) (by decide)).2.2.2
    ⟨1, 90, 2, 1, 60000000000, toLex (1, 1)⟩ (by decide)

end QuantArena.Fanout
