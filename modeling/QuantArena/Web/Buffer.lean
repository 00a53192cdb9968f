import QuantArena.Fanout.Messages
import QuantArena.Foundations.Ascending

/-! The browser's candles: every series of one symbol and one width ascends, is bounded, and
holds the newest bars in the version that was written last. -/

set_option autoImplicit false

namespace QuantArena.Web

open Foundations Fanout

/-- How many closed candles the chart keeps in memory. -/
def barLimit : Nat := 600

structure BarView where
  openTicks : Int
  highTicks : Int
  lowTicks : Int
  closeTicks : Int
  volume : Int
  barOpenNs : Int
  seq : StreamId
deriving DecidableEq

/-- What `MarketBuffer` keeps of candles. -/
structure MarketBuffer where
  bars : Dict Channel (List BarView)
  changed : Finset Name
  writes : Nat

namespace MarketBuffer

def new : MarketBuffer := ⟨.empty, ∅, 0⟩

def barKey (symbol width : Name) : Channel := channelOf [symbol, width]

/-- An older candle is placed by binary search, in the place of its twin if there is one. -/
def placeOlder (series : List BarView) (bar : BarView) : List BarView :=
  let lo := bisect (fun mid => (series[mid]?).any (·.barOpenNs < bar.barOpenNs)) 0 series.length
  match series[lo]? with
  | some twin =>
      if twin.barOpenNs = bar.barOpenNs then series.set lo bar else series.insertIdx lo bar
  | none => series.insertIdx lo bar

/-- A newer one is appended. -/
def place (series : List BarView) (bar : BarView) : List BarView :=
  match series.getLast? with
  | none => series ++ [bar]
  | some last =>
      if last.barOpenNs < bar.barOpenNs then series ++ [bar] else placeOlder series bar

/-- Trimmed from the front, so that the newest bars survive. -/
def trim (series : List BarView) : List BarView := series.drop (series.length - barLimit)

def writeBar (buffer : MarketBuffer) (symbol width : Name) (bar : BarView) : MarketBuffer where
  bars := buffer.bars.set (barKey symbol width)
    (trim (place (buffer.bars.getD (barKey symbol width) []) bar))
  changed := insert symbol buffer.changed
  writes := buffer.writes + 1

def barSeries (buffer : MarketBuffer) (symbol width : Name) : List BarView :=
  buffer.bars.getD (barKey symbol width) []

/-- Every call of a sequence, in order. -/
def writeBars (buffer : MarketBuffer) (calls : List (Name × Name × BarView)) : MarketBuffer :=
  calls.foldl (fun buffer call => buffer.writeBar call.1 call.2.1 call.2.2) buffer

end MarketBuffer

/-! ## One series -/

variable {series written : List BarView} {bar : BarView}

theorem placeOlder_eq (ascending : Ascending BarView.barOpenNs series) (bar : BarView) :
    MarketBuffer.placeOlder series bar = placed BarView.barOpenNs series bar := by
  rw [MarketBuffer.placeOlder, ascending.bisect_eq bar.barOpenNs]
  cases found : series[(series.filter (·.barOpenNs < bar.barOpenNs)).length]? with
  | none =>
      refine ascending.insertIdx_eq_placed (ascending.fresh_of_getElem? fun twin here => ?_)
      cases found.symm.trans here
  | some twin =>
      by_cases same : twin.barOpenNs = bar.barOpenNs
      · simp only [same, if_true]
        exact ascending.set_eq_placed found same
      · simp only [same, if_false]
        refine ascending.insertIdx_eq_placed (ascending.fresh_of_getElem? fun other here => ?_)
        cases found.symm.trans here
        exact same

theorem place_eq (ascending : Ascending BarView.barOpenNs series) (bar : BarView) :
    MarketBuffer.place series bar = placed BarView.barOpenNs series bar := by
  rw [MarketBuffer.place]
  cases newest : series.getLast? with
  | none =>
      rw [List.getLast?_eq_none_iff.mp newest]
      rfl
  | some last =>
      by_cases newer : last.barOpenNs < bar.barOpenNs
      · obtain ⟨before, rfl⟩ := List.getLast?_eq_some_iff.mp newest
        have all : ∀ other ∈ before ++ [last], other.barOpenNs < bar.barOpenNs := by
          intro other member
          cases List.mem_append.mp member with
          | inl old =>
              exact ((List.pairwise_append.mp ascending).2.2 other old last
                List.mem_cons_self).trans newer
          | inr same => rwa [List.mem_singleton.mp same]
        simp only [newer, if_true, placed]
        rw [List.filter_eq_self.mpr fun other member => by simpa using all other member,
          List.filter_eq_nil_iff.mpr fun other member => by simpa using (all other member).le]
      · simp only [newer, if_false]
        exact placeOlder_eq ascending bar

/-- The version of a candle that was written last. -/
def latest (written : List BarView) (openNs : Int) : Option BarView :=
  (written.filter (·.barOpenNs = openNs)).getLast?

/-- A series after some writes: what is missing is older than everything in a full one. -/
structure Window (written series : List BarView) : Prop where
  ascending : Ascending BarView.barOpenNs series
  bounded : series.length ≤ barLimit
  latest : ∀ bar ∈ series, latest written bar.barOpenNs = some bar
  missing : ∀ bar ∈ written, (∀ held ∈ series, held.barOpenNs ≠ bar.barOpenNs) →
    barLimit ≤ series.length ∧ ∀ held ∈ series, bar.barOpenNs < held.barOpenNs

theorem latest_snoc (written : List BarView) (bar : BarView) (openNs : Int) :
    latest (written ++ [bar]) openNs =
      if bar.barOpenNs = openNs then some bar else latest written openNs := by
  rw [latest, latest, List.filter_append, List.filter_singleton]
  by_cases same : bar.barOpenNs = openNs <;> simp [same]

theorem mem_trim (member : bar ∈ MarketBuffer.trim series) : bar ∈ series :=
  List.mem_of_mem_drop member

/-- What is trimmed off is older than what stays. -/
theorem lt_of_trimmed (ascending : Ascending BarView.barOpenNs series) (member : bar ∈ series)
    (gone : bar ∉ MarketBuffer.trim series) :
    ∀ held ∈ MarketBuffer.trim series, bar.barOpenNs < held.barOpenNs := by
  have parts := List.take_append_drop (series.length - barLimit) series
  have ordered := ascending
  rw [← parts] at member ordered
  have early := (List.mem_append.mp member).resolve_right gone
  exact (List.pairwise_append.mp ordered).2.2 bar early

theorem length_trim : (MarketBuffer.trim series).length = min series.length barLimit := by
  rw [MarketBuffer.trim, List.length_drop]
  omega

theorem trim_eq_self (short : series.length ≤ barLimit) : MarketBuffer.trim series = series := by
  rw [MarketBuffer.trim, Nat.sub_eq_zero_of_le short, List.drop_zero]

/-- What is older than a full series stays older than what becomes of it. -/
theorem Window.pushed (window : Window written series) {openNs : Int}
    (full : barLimit ≤ series.length) (older : ∀ held ∈ series, openNs < held.barOpenNs) :
    barLimit ≤ (MarketBuffer.trim (placed BarView.barOpenNs series bar)).length ∧
      ∀ held ∈ MarketBuffer.trim (placed BarView.barOpenNs series bar),
        openNs < held.barOpenNs := by
  have ascending := window.ascending.placed_ascending bar
  have bounded := window.bounded
  rw [length_trim]
  rcases window.ascending.length_placed bar with ⟨⟨twin, inside, same⟩, length⟩ | ⟨fresh, length⟩
  · refine ⟨by omega, fun held member => ?_⟩
    cases Ascending.mem_placed.mp (mem_trim member) with
    | inl new => exact new ▸ same ▸ older twin inside
    | inr old => exact older held old.1
  · refine ⟨by omega, fun held member => ?_⟩
    cases parts : placed BarView.barOpenNs series bar with
    | nil => simp [parts] at length
    | cons first rest =>
        have trimmed : MarketBuffer.trim (placed BarView.barOpenNs series bar) = rest := by
          have one : (first :: rest).length - barLimit = 1 := by
            rw [← parts]
            omega
          rw [MarketBuffer.trim, parts, one]
          rfl
        have after := (List.pairwise_cons.mp (parts ▸ ascending)).1
        rw [trimmed] at member
        cases Ascending.mem_placed.mp (mem_trim (trimmed ▸ member)) with
        | inr old => exact older held old.1
        | inl new =>
            have start : first ∈ placed BarView.barOpenNs series bar := parts ▸ List.mem_cons_self
            have oldest : first ∈ series := by
              cases Ascending.mem_placed.mp start with
              | inl same => exact absurd (after held member) (by simp [new, same])
              | inr old => exact old.1
            exact (older first oldest).trans (after held member)

/-- One more write. -/
theorem Window.write (window : Window written series) (bar : BarView) :
    Window (written ++ [bar]) (MarketBuffer.trim (MarketBuffer.place series bar)) := by
  rw [place_eq window.ascending]
  have ascending := window.ascending.placed_ascending bar
  refine ⟨ascending.sublist (List.drop_sublist _ _), length_trim.trans_le (min_le_right _ _), ?_, ?_⟩
  · intro held member
    rw [latest_snoc]
    rcases Ascending.mem_placed.mp (mem_trim member) with rfl | ⟨old, different⟩
    · rw [if_pos rfl]
    · rw [if_neg different.symm]
      exact window.latest held old
  · intro lost member gone
    by_cases present : ∃ twin ∈ placed BarView.barOpenNs series bar, twin.barOpenNs = lost.barOpenNs
    · -- it was there, and has just been trimmed off
      obtain ⟨twin, inside, same⟩ := present
      have off : twin ∉ MarketBuffer.trim (placed BarView.barOpenNs series bar) := fun kept =>
        gone twin kept same
      refine ⟨?_, same ▸ lt_of_trimmed ascending inside off⟩
      rw [length_trim]
      by_contra short
      have small : (placed BarView.barOpenNs series bar).length ≤ barLimit := by omega
      rw [trim_eq_self small] at off
      exact off inside
    · -- it was missing before, and the series was full
      have absent : ∀ held ∈ placed BarView.barOpenNs series bar, held.barOpenNs ≠ lost.barOpenNs :=
        fun held inside same => present ⟨held, inside, same⟩
      have other : bar.barOpenNs ≠ lost.barOpenNs := absent bar (Ascending.mem_placed.mpr (.inl rfl))
      have old : lost ∈ written := (List.mem_append.mp member).resolve_right fun new =>
        other (by rw [List.mem_singleton.mp new])
      obtain ⟨full, older⟩ := window.missing lost old fun held inside same =>
        absent held (Ascending.mem_placed.mpr (.inr ⟨inside, same ▸ other.symm⟩)) same
      exact window.pushed full older

/-! ## Every series -/

/-- The bars written under one key. -/
def writtenAt (key : Channel) (calls : List (Name × Name × BarView)) : List BarView :=
  (calls.filter fun call => MarketBuffer.barKey call.1 call.2.1 = key).map (·.2.2)

theorem writeBars_snoc (buffer : MarketBuffer) (calls : List (Name × Name × BarView))
    (call : Name × Name × BarView) :
    buffer.writeBars (calls ++ [call]) =
      (buffer.writeBars calls).writeBar call.1 call.2.1 call.2.2 := by
  simp [MarketBuffer.writeBars]

theorem writeBars_window (calls : List (Name × Name × BarView)) (symbol width : Name) :
    Window (writtenAt (MarketBuffer.barKey symbol width) calls)
      ((MarketBuffer.new.writeBars calls).barSeries symbol width) := by
  induction calls using List.reverseRecOn with
  | nil => exact ⟨List.Pairwise.nil, Nat.zero_le _, by simp [MarketBuffer.new, MarketBuffer.writeBars,
      MarketBuffer.barSeries, Dict.getD], by simp [writtenAt]⟩
  | append_singleton before call ih =>
      rw [writeBars_snoc, writtenAt, List.filter_append, List.map_append, ← writtenAt,
        MarketBuffer.barSeries, MarketBuffer.writeBar, Dict.getD_set]
      by_cases own : MarketBuffer.barKey call.1 call.2.1 = MarketBuffer.barKey symbol width
      · rw [if_pos own.symm, own, List.filter_cons_of_pos (by simpa using own)]
        exact ih.write call.2.2
      · rw [if_neg (Ne.symm own), List.filter_cons_of_neg (by simpa using own)]
        simpa [MarketBuffer.barSeries] using ih

/-- Whatever is written in whatever order, a series can be drawn: it ascends, it is bounded, and
it shows the newest candles as they were written last. -/
theorem series_is_drawable (calls : List (Name × Name × BarView)) (symbol width : Name) :
    let series := (MarketBuffer.new.writeBars calls).barSeries symbol width
    let written := writtenAt (MarketBuffer.barKey symbol width) calls
    (series.Pairwise fun early late => early.barOpenNs < late.barOpenNs) ∧
      series.length ≤ barLimit ∧
      (∀ bar ∈ series, latest written bar.barOpenNs = some bar) ∧
      ∀ openNs ∈ written.map (·.barOpenNs),
        ((written.map (·.barOpenNs)).dedup.filter (openNs < ·)).length < barLimit →
          openNs ∈ series.map (·.barOpenNs) := by
  intro series written
  have window : Window written series := writeBars_window calls symbol width
  refine ⟨window.ascending, window.bounded, window.latest, ?_⟩
  intro openNs member few
  obtain ⟨bar, inside, rfl⟩ := List.mem_map.mp member
  by_contra gone
  obtain ⟨full, older⟩ := window.missing bar inside fun held kept same =>
    gone (List.mem_map.mpr ⟨held, kept, same⟩)
  -- every candle that is shown was written, and none has the open time of another
  have shown : (series.map (·.barOpenNs)).Subperm
      ((written.map (·.barOpenNs)).dedup.filter (bar.barOpenNs < ·)) := by
    refine List.subperm_of_subset ?_ fun time held => ?_
    · exact (List.pairwise_map.mpr window.ascending).imp fun before => before.ne
    · obtain ⟨candle, kept, rfl⟩ := List.mem_map.mp held
      have source := List.mem_of_getLast? (window.latest candle kept)
      refine List.mem_filter.mpr ⟨List.mem_dedup.mpr (List.mem_map_of_mem
        (List.mem_filter.mp source).1), by simpa using older candle kept⟩
  have count := shown.length_le
  rw [List.length_map] at count
  omega

end QuantArena.Web
