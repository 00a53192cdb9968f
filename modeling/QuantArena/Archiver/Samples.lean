import QuantArena.Archiver.Finish

/-! The snapshots dataset against the stream: when the samples of a sealed unit are the books
at the ends of its seconds. -/

set_option autoImplicit false

namespace QuantArena.Archive

open Foundations Contracts Fanout

variable (geometry : Geometry)

/-! ## What one state seals -/

def drainInto (units : List FlushUnit) (state : ArchiveState) : ArchiveState × List FlushUnit :=
  (state.drainReady.1, units ++ state.drainReady.2)

/-- One state over some batches, with all the units drained out of it. -/
def harvest (batches : List (List Entry)) : ArchiveState × List FlushUnit :=
  batches.foldl (fun held batch => drainInto held.2 (held.1.applyAll geometry batch))
    (.new geometry, [])

/-- The same, up to the end of the run. -/
def harvestAll (batches : List (List Entry)) : ArchiveState × List FlushUnit :=
  let held := harvest geometry batches
  drainInto held.2 (held.1.finish geometry)

/-- What some units file as the samples of one. -/
def samplesOf (units : List FlushUnit) (start : Int) : List SnapshotRow :=
  (units.filter fun unit => unit.startNs = start).flatMap (·.rows.snapshots)

/-! ## What the stream says -/

def sides : List Int := [sideCode .buy, sideCode .sell]

/-- The rows of one second, one symbol and one side. -/
def rowsAt (rows : List SnapshotRow) (secondNs symbolId side : Int) : List SnapshotRow :=
  rows.filter fun row => row.secondNs = secondNs ∧ row.symbolId = symbolId ∧ row.side = side

/-- A side of a book, best level first, as the rows of a second. -/
def levelRows (market : MarketState) (secondNs symbolId side : Int) : List SnapshotRow :=
  ((market.book symbolId).levels side geometry.bookDepth).zipIdx.map fun (level, index) =>
    ⟨symbolId, secondNs, side, index, level.1, level.2⟩

/-- The market as the records before a moment tell it. -/
def marketBefore (moment : Int) (entries : List Entry) : MarketState :=
  told geometry (entries.filter fun entry => entry.2.timestampNs < moment)

/-- For every second of the unit, both sides of every book as they stood at its end. -/
structure Exact (entries : List Entry) (start : Int) (rows : List SnapshotRow) : Prop where
  levels : ∀ second ∈ geometry.seconds start, ∀ symbolId, ∀ side ∈ sides,
    rowsAt rows second symbolId side =
      levelRows geometry (marketBefore geometry (second + nsPerSecond) entries) second symbolId side
  only : ∀ row ∈ rows, row.secondNs ∈ geometry.seconds start ∧ row.side ∈ sides

/-- The first record of the unit comes in its first second, or it moves no level that shows. -/
def Punctual (entries : List Entry) (start : Int) : Prop :=
  countBefore start entries < countBefore (start + nsPerSecond) entries ∨
    ∀ symbolId, ∀ side ∈ sides,
      ((told geometry (entries.take (countBefore start entries + 1))).book symbolId).levels side
          geometry.bookDepth =
        ((told geometry (entries.take (countBefore start entries))).book symbolId).levels side
          geometry.bookDepth

variable {geometry} {batches : List (List Entry)} {entries seen : List Entry} {entry : Entry}
  {start second symbolId side : Int} {gone units : List FlushUnit} {state : ArchiveState}
  {market : MarketState}

/-! ## Runs of one state -/

theorem harvest_snoc (batches : List (List Entry)) (batch : List Entry) :
    harvest geometry (batches ++ [batch]) = drainInto (harvest geometry batches).2
      ((harvest geometry batches).1.applyAll geometry batch) := by
  simp [harvest]

theorem harvest_describes (timed : Timed batches.flatten) :
    Describes geometry batches.flatten (harvest geometry batches).2 (harvest geometry batches).1 ∧
      (harvest geometry batches).1.ready = [] := by
  induction batches using List.reverseRecOn with
  | nil => exact ⟨new_describes geometry, rfl⟩
  | append_singleton before batch ih =>
      rw [List.flatten_append, List.flatten_singleton] at timed ⊢
      have described := ih (List.pairwise_append.mp timed).1
      have next := described.1.applyAll timed
      obtain ⟨all, drained⟩ := next.drained
      rw [harvest_snoc, drainInto, all]
      exact ⟨drained, rfl⟩

/-- Of units that ascend, one start has one unit. -/
theorem filter_startNs (ascending : units.Pairwise fun first second => first.startNs < second.startNs)
    {unit : FlushUnit} (member : unit ∈ units) :
    (units.filter fun other => other.startNs = unit.startNs) = [unit] := by
  induction units with
  | nil => cases member
  | cons head rest ih =>
      obtain ⟨first, later⟩ := List.pairwise_cons.mp ascending
      cases member with
      | head =>
          have none : (rest.filter fun other => other.startNs = unit.startNs) = [] :=
            List.filter_eq_nil_iff.mpr fun other inside => by simpa using (first other inside).ne'
          rw [List.filter_cons_of_pos (by simp), none]
      | tail _ inside =>
          rw [List.filter_cons_of_neg (by simpa using (first unit inside).ne)]
          exact ih later inside

/-- A state, or one that was finished, accounts for a unit: what it filed are the unit's samples. -/
theorem samplesOf_accounted
    (ascending : units.Pairwise fun first second => first.startNs < second.startNs)
    (samples : ∀ unit ∈ units, unit.rows.snapshots = unitSamples geometry unit.startNs seen)
    (complete : (∃ unit ∈ units, unit.startNs = start) ∨ unitSamples geometry start seen = []) :
    samplesOf units start = unitSamples geometry start seen := by
  by_cases found : ∃ unit ∈ units, unit.startNs = start
  · obtain ⟨unit, member, rfl⟩ := found
    rw [samplesOf, filter_startNs ascending member, List.flatMap_singleton, samples unit member]
  · have none : (units.filter fun unit => unit.startNs = start) = [] :=
      List.filter_eq_nil_iff.mpr fun unit member => by
        simpa using fun same => found ⟨unit, member, same⟩
    rw [samplesOf, none, complete.resolve_left found]
    rfl

theorem Describes.samplesOf (described : Describes geometry seen gone state) (member : entry ∈ seen)
    (early : unitOf geometry entry < openUnit geometry seen) :
    samplesOf (gone ++ state.ready) (unitOf geometry entry) =
      unitSamples geometry (unitOf geometry entry) seen :=
  samplesOf_accounted described.ascending described.samples
    ((described.complete entry member early).imp_right fun empty => empty.2)

/-- Every unit, once the run is finished. -/
theorem Covers.samplesOf (covers : Covers geometry seen units) (member : entry ∈ seen) :
    Archive.samplesOf units (unitOf geometry entry) =
      unitSamples geometry (unitOf geometry entry) seen :=
  samplesOf_accounted covers.ascending covers.samples
    ((covers.complete entry member).imp_right fun empty => empty.2)

/-! ## The rows of a second -/

theorem mem_levelRows {row : SnapshotRow} (member : row ∈ levelRows geometry market second symbolId side) :
    row.secondNs = second ∧ row.symbolId = symbolId ∧ row.side = side := by
  obtain ⟨⟨level, index⟩, -, rfl⟩ := List.mem_map.mp member
  exact ⟨rfl, rfl, rfl⟩

theorem snapshotRows_eq (market : MarketState) (second : Int) :
    ArchiveState.snapshotRows geometry market second = market.symbols.flatMap fun symbolId =>
      sides.flatMap (levelRows geometry market second symbolId) := rfl

theorem levelRows_of_absent (absent : symbolId ∉ market.symbols) :
    levelRows geometry market second symbolId side = [] := by
  have none : market.books.get? symbolId = none := Dict.get?_eq_none_iff.mpr fun present =>
    absent ((List.mem_insertionSort _).mpr present)
  rw [levelRows, MarketState.book, Dict.getD, none]
  simp [Book.levels, Book.totals, Book.new]

theorem symbols_nodup (market : MarketState) : market.symbols.Nodup :=
  (List.perm_insertionSort _ _).nodup_iff.mpr market.books.unique

theorem rowsAt_flatMap {items : List Int} (give : Int → List SnapshotRow)
    (secondNs symbolId side : Int) :
    rowsAt (items.flatMap give) secondNs symbolId side =
      items.flatMap fun item => rowsAt (give item) secondNs symbolId side := by
  rw [rowsAt, List.filter_flatMap]
  rfl

theorem rowsAt_levelRows (market : MarketState) (second symbolId side : Int) :
    rowsAt (levelRows geometry market second symbolId side) second symbolId side =
      levelRows geometry market second symbolId side :=
  List.filter_eq_self.mpr fun row member => by simpa using mem_levelRows member

theorem rowsAt_other {market : MarketState} {otherSecond otherSymbol otherSide : Int}
    (apart : otherSecond ≠ second ∨ otherSymbol ≠ symbolId ∨ otherSide ≠ side) :
    rowsAt (levelRows geometry market otherSecond otherSymbol otherSide) second symbolId side = [] :=
  List.filter_eq_nil_iff.mpr fun row member => by
    obtain ⟨second, symbol, side⟩ := mem_levelRows member
    rw [second, symbol, side, decide_eq_true_eq]
    tauto

/-- Of distinct items, the only one that gives anything. -/
theorem flatMap_of_only {ρ : Type} {items : List Int} {item : Int} {give : Int → List ρ}
    (unique : items.Nodup) (member : item ∈ items)
    (others : ∀ other ∈ items, other ≠ item → give other = []) : items.flatMap give = give item :=
  @flatMap_of_one _ _ _ id _ _ _ ((List.map_id items).symm ▸ unique) member others

theorem rowsAt_snapshotRows (market : MarketState) (own : side ∈ sides) :
    rowsAt (ArchiveState.snapshotRows geometry market second) second symbolId side =
      levelRows geometry market second symbolId side := by
  have sideRows : ∀ symbol, rowsAt (sides.flatMap (levelRows geometry market second symbol))
      second symbolId side = rowsAt (levelRows geometry market second symbol side)
        second symbolId side := fun symbol => by
    rw [rowsAt_flatMap]
    exact flatMap_of_only (by decide) own fun other _ apart => rowsAt_other (.inr (.inr apart))
  rw [snapshotRows_eq, rowsAt_flatMap]
  simp only [sideRows]
  by_cases listed : symbolId ∈ market.symbols
  · exact (flatMap_of_only (symbols_nodup market) listed fun other _ apart =>
      rowsAt_other (.inr (.inl apart))).trans (rowsAt_levelRows market second symbolId side)
  · rw [levelRows_of_absent listed]
    exact List.flatMap_eq_nil_iff.mpr fun other member =>
      rowsAt_other (.inr (.inl fun same => listed (same ▸ member)))

/-- The rows of a unit, second by second, symbol by symbol and side by side. -/
theorem rowsAt_unitSamples (inside : second ∈ geometry.seconds start) (own : side ∈ sides) :
    rowsAt (unitSamples geometry start entries) second symbolId side =
      levelRows geometry (told geometry (basis start second entries)) second symbolId side := by
  have unique : (geometry.seconds start).Nodup :=
    (seconds_ascending geometry start).imp fun before => before.ne
  rw [unitSamples, rowsAt_flatMap]
  refine (flatMap_of_only unique inside fun other _ apart => ?_).trans
    (rowsAt_snapshotRows _ own)
  rw [secondSamples, snapshotRows_eq, rowsAt_flatMap]
  refine List.flatMap_eq_nil_iff.mpr fun symbol _ => ?_
  rw [rowsAt_flatMap]
  exact List.flatMap_eq_nil_iff.mpr fun side _ => rowsAt_other (.inl apart)

theorem mem_unitSamples {row : SnapshotRow} (member : row ∈ unitSamples geometry start entries) :
    row.secondNs ∈ geometry.seconds start ∧ row.side ∈ sides := by
  obtain ⟨second, inside, sample⟩ := List.mem_flatMap.mp member
  rw [secondSamples, snapshotRows_eq] at sample
  obtain ⟨symbol, -, sample⟩ := List.mem_flatMap.mp sample
  obtain ⟨side, own, level⟩ := List.mem_flatMap.mp sample
  obtain ⟨atSecond, -, onSide⟩ := mem_levelRows level
  exact ⟨atSecond ▸ inside, onSide ▸ own⟩

/-- Rows show the levels and nothing else. -/
theorem levelRows_inj {left right : MarketState} : levelRows geometry left second symbolId side =
      levelRows geometry right second symbolId side ↔
    (left.book symbolId).levels side geometry.bookDepth =
      (right.book symbolId).levels side geometry.bookDepth := by
  have shown : ∀ market : MarketState, (levelRows geometry market second symbolId side).map
      (fun row => (row.priceTicks, row.qty)) =
      (market.book symbolId).levels side geometry.bookDepth := fun market => by
    rw [levelRows, List.map_map]
    exact List.zipIdx_map_fst _ _
  constructor
  · intro same
    rw [← shown left, same, shown right]
  · intro same
    rw [levelRows, same, levelRows]

/-! ## Exactness -/

theorem filter_before (timed : Timed entries) (moment : Int) :
    entries.filter (fun entry => entry.2.timestampNs < moment) =
      entries.take (countBefore moment entries) := by
  induction entries with
  | nil => rfl
  | cons head rest ih =>
      obtain ⟨before, later⟩ := List.pairwise_cons.mp timed
      by_cases early : head.2.timestampNs < moment
      · simpa [countBefore, early] using ih later
      · have late : ∀ entry ∈ head :: rest, moment ≤ entry.2.timestampNs := by
          intro entry member
          cases member with
          | head => exact not_lt.mp early
          | tail _ inside => exact (not_lt.mp early).trans (before entry inside)
        rw [countBefore_none late, List.take_zero]
        exact List.filter_eq_nil_iff.mpr fun entry member => by simpa using late entry member

theorem countBefore_mono {early late : Int} (before : early ≤ late) (entries : List Entry) :
    countBefore early entries ≤ countBefore late entries :=
  List.countP_mono_left fun entry _ first => by
    simp only [decide_eq_true_eq] at first ⊢
    exact first.trans_le before

/-- The samples are exact just where the first record was not seen too early. -/
theorem unitSamples_exact_iff (timed : Timed entries) :
    Exact geometry entries start (unitSamples geometry start entries) ↔
      Punctual geometry entries start := by
  have positive : 0 < nsPerSecond := by decide
  have firstSecond : start ∈ geometry.seconds start :=
    mem_seconds.mpr ⟨0, lt_of_lt_of_le Int.one_pos geometry.positive, by simp⟩
  constructor
  · intro exact
    by_cases prompt : countBefore start entries < countBefore (start + nsPerSecond) entries
    · exact .inl prompt
    · refine .inr fun symbolId side own => ?_
      have same := exact.levels start firstSecond symbolId side own
      have few : max (countBefore start entries + 1) (countBefore (start + nsPerSecond) entries) =
          countBefore start entries + 1 := by omega
      have none := countBefore_mono (by linarith : start ≤ start + nsPerSecond) entries
      rw [rowsAt_unitSamples firstSecond own, levelRows_inj, basis, few, marketBefore,
        filter_before timed] at same
      rw [same, show countBefore (start + nsPerSecond) entries = countBefore start entries by omega]
  · intro punctual
    refine ⟨fun second inside symbolId side own => ?_, fun row member => mem_unitSamples member⟩
    rw [rowsAt_unitSamples inside own, levelRows_inj, basis, marketBefore, filter_before timed]
    have lower := le_of_mem_seconds inside
    have reached := countBefore_mono (by linarith : start + nsPerSecond ≤ second + nsPerSecond) entries
    have opened := countBefore_mono (by linarith : start ≤ second + nsPerSecond) entries
    by_cases some : countBefore start entries < countBefore (second + nsPerSecond) entries
    · rw [max_eq_right some]
    · rw [max_eq_left (by omega), show countBefore (second + nsPerSecond) entries =
        countBefore start entries by omega]
      exact (punctual.resolve_left (by omega)) symbolId side own

/-- Of every unit that is sealed, the samples are the books at the ends of its seconds exactly
if the first record of the unit comes in its first second, or moves no level that shows. -/
theorem samples_exact_iff (timed : Timed batches.flatten)
    {held : ArchiveState × List FlushUnit}
    (run : held = harvest geometry batches ∨ held = harvestAll geometry batches)
    (member : entry ∈ batches.flatten)
    (sealed : ∃ through ∈ held.1.sealedThrough, unitOf geometry entry ≤ through) :
    Exact geometry batches.flatten (unitOf geometry entry)
        (samplesOf held.2 (unitOf geometry entry)) ↔
      Punctual geometry batches.flatten (unitOf geometry entry) := by
  obtain ⟨described, drained⟩ := @harvest_describes geometry batches timed
  suffices samplesOf held.2 (unitOf geometry entry) =
      unitSamples geometry (unitOf geometry entry) batches.flatten by
    rw [this]
    exact unitSamples_exact_iff timed
  cases run with
  | inl reading =>
      cases reading
      obtain ⟨through, found, reached⟩ := sealed
      have past := described.samplesOf member (reached.trans_lt (described.through through found).2)
      rwa [drained, List.append_nil] at past
  | inr finished =>
      cases finished
      have some := List.ne_nil_of_mem member
      have covers := (described.finish_covers timed some).samplesOf member
      rw [harvestAll, drainInto, described.finish_drained timed some]
      exact covers

/-- Units of two seconds. -/
def pairs : Geometry := ⟨[⟨1, by decide⟩, ⟨2, by decide⟩], 10, 2, by decide, by decide⟩

/-- A bid that is accepted in a second, and a fill of orders that no book has. -/
def bidAt (second : Nat) : Entry :=
  (toLex (second, 0), .orderAccepted ⟨second * nsPerSecond, 1, 1, 7, 100, 1, 1, 1, 2⟩)

def printAt (second : Nat) : Entry :=
  (toLex (second, 0), .fill ⟨second * nsPerSecond, 8, 9, 8, 9, 100, 1, 1, 1⟩)

theorem samples_exact_iff_pairs :
    Exact pairs [bidAt 0, printAt 3] 0
        (samplesOf (harvest pairs [[bidAt 0], [printAt 3]]).2 0) ↔
      Punctual pairs [bidAt 0, printAt 3] 0 :=
  @samples_exact_iff pairs [[bidAt 0], [printAt 3]] (bidAt 0) (by decide +kernel) _ (.inl rfl)
    (by decide) ⟨0, by decide +kernel, by decide⟩

/-- A bid in a unit's second second shows in its first. -/
theorem sample_looks_ahead :
    ∃ batches : List (List Entry), Timed batches.flatten ∧ ∃ entry ∈ batches.flatten,
      (∃ through ∈ (harvest pairs batches).1.sealedThrough, unitOf pairs entry ≤ through) ∧
        ¬ Exact pairs batches.flatten (unitOf pairs entry)
          (samplesOf (harvest pairs batches).2 (unitOf pairs entry)) := by
  refine ⟨[[bidAt 1, printAt 2]], by decide +kernel, bidAt 1, by decide,
    ⟨0, by decide +kernel, by decide⟩, fun exact => ?_⟩
  have levels := exact.levels 0 (by decide) 1 1 (by decide)
  exact absurd levels (by decide +kernel)

end QuantArena.Archive
