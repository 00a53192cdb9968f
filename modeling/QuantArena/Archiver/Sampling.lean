import QuantArena.Archiver.StateProperties
import QuantArena.Foundations.Ascending

/-! The book samples of a unit: which records the books had been told when each of its
seconds was sampled. -/

set_option autoImplicit false

namespace QuantArena.Archive

open Foundations Contracts Fanout

variable (geometry : Geometry)

/-- The market as some records tell it to a state that starts empty. -/
def told (entries : List Entry) : MarketState :=
  (MarketState.new geometry.barWidths).applyAll (entries.map fun entry => (entry.2, some entry.1))

/-- How many records come before a moment. -/
def countBefore (moment : Int) (entries : List Entry) : Nat :=
  entries.countP fun entry => entry.2.timestampNs < moment

/-- What a second of a unit is sampled from: the records before its end, and the unit's first
record in any case, since a unit has no samples before that record opens it. -/
def basis (start second : Int) (entries : List Entry) : List Entry :=
  entries.take (max (countBefore start entries + 1) (countBefore (second + nsPerSecond) entries))

def secondSamples (start : Int) (entries : List Entry) (second : Int) : List SnapshotRow :=
  ArchiveState.snapshotRows geometry (told geometry (basis start second entries)) second

/-- All samples of a unit. -/
def unitSamples (start : Int) (entries : List Entry) : List SnapshotRow :=
  (geometry.seconds start).flatMap (secondSamples geometry start entries)

variable {geometry} {entries : List Entry} {entry : Entry} {start second : Int}

/-! ## Books -/

theorem snapshotRows_congr {left right : MarketState} (same : left.books = right.books)
    (second : Int) : ArchiveState.snapshotRows geometry left second =
      ArchiveState.snapshotRows geometry right second := by
  simp only [ArchiveState.snapshotRows, MarketState.symbols, MarketState.book, same]

theorem told_append (entries more : List Entry) : told geometry (entries ++ more) =
    (told geometry entries).applyAll (more.map fun entry => (entry.2, some entry.1)) := by
  simp [told, MarketState.applyAll]

theorem books_apply {left right : MarketState} (same : left.books = right.books)
    (record : Outbound) (leftId rightId : Option StreamId) :
    (left.apply record leftId).books = (right.apply record rightId).books := by
  cases record <;>
    simp [MarketState.apply, MarketState.applyRecord, MarketState.withTrade, MarketState.withBook,
      MarketState.book, same]

/-- What the archiver takes out of the market is no book. -/
theorem folded_books {market : MarketState} (same : market.books = (told geometry entries).books)
    (entry : Entry) :
    (folded market entry).1.books = (told geometry (entries ++ [entry])).books := by
  have applied : (folded market entry).1.books = (market.apply entry.2 (some entry.1)).books := by
    obtain ⟨streamId, record⟩ := entry
    cases record <;> rfl
  rw [applied, told_append]
  exact books_apply same entry.2 _ _

/-! ## Moments -/

theorem seconds_eq (geometry : Geometry) (start : Int) : geometry.seconds start =
    (List.range geometry.flushSeconds.toNat).map fun index : Nat => start + index * nsPerSecond := by
  simp [Geometry.seconds, ← List.map_eq_flatMap]

theorem seconds_ascending (geometry : Geometry) (start : Int) :
    Ascending id (geometry.seconds start) := by
  rw [seconds_eq]
  refine List.pairwise_map.mpr (List.pairwise_lt_range.imp fun {early late} before => ?_)
  have positive : 0 < nsPerSecond := by decide
  have less : (early : Int) * nsPerSecond < late * nsPerSecond :=
    Int.mul_lt_mul_of_pos_right (by exact_mod_cast before) positive
  exact Int.add_lt_add_left less start

theorem mem_seconds : second ∈ geometry.seconds start ↔
    ∃ index : Nat, index < geometry.flushSeconds ∧ second = start + index * nsPerSecond := by
  have positive := geometry.positive
  simp only [seconds_eq, List.mem_map, List.mem_range]
  constructor
  · rintro ⟨index, inside, rfl⟩
    exact ⟨index, by omega, rfl⟩
  · rintro ⟨index, inside, rfl⟩
    exact ⟨index, by omega, rfl⟩

theorem le_of_mem_seconds (member : second ∈ geometry.seconds start) : start ≤ second := by
  obtain ⟨index, -, rfl⟩ := mem_seconds.mp member
  exact Int.le_add_of_nonneg_right (Int.mul_nonneg (Int.natCast_nonneg _) (by decide))

theorem end_of_mem_seconds (member : second ∈ geometry.seconds start) :
    second + nsPerSecond ≤ start + geometry.flushNs := by
  obtain ⟨index, inside, rfl⟩ := mem_seconds.mp member
  have whole : ((index : Int) + 1) * nsPerSecond ≤ geometry.flushSeconds * nsPerSecond :=
    Int.mul_le_mul_of_nonneg_right (Int.add_one_le_iff.mpr inside) (by decide)
  rw [Geometry.flushNs]
  linarith

theorem countBefore_append (moment : Int) (entries more : List Entry) :
    countBefore moment (entries ++ more) =
      countBefore moment entries + countBefore moment more := List.countP_append ..

theorem countBefore_all {moment : Int} (early : ∀ entry ∈ entries, entry.2.timestampNs < moment) :
    countBefore moment entries = entries.length :=
  List.countP_eq_length.mpr fun entry member => by simpa using early entry member

theorem countBefore_none {moment : Int} (late : ∀ entry ∈ entries, moment ≤ entry.2.timestampNs) :
    countBefore moment entries = 0 :=
  List.countP_eq_zero.mpr fun entry member => by simpa using late entry member

theorem countBefore_lt {moment : Int} (member : entry ∈ entries)
    (late : moment ≤ entry.2.timestampNs) : countBefore moment entries < entries.length := by
  refine lt_of_le_of_ne List.countP_le_length fun all => ?_
  have early := List.countP_eq_length.mp all entry member
  simp only [decide_eq_true_eq] at early
  exact absurd late (not_le.mpr early)

/-- A second that is over before some records come is not sampled from them. -/
theorem basis_append {more : List Entry} (own : second ∈ geometry.seconds start)
    (opened : countBefore start entries < entries.length)
    (late : ∀ entry ∈ more, second + nsPerSecond ≤ entry.2.timestampNs) :
    basis start second (entries ++ more) = basis start second entries := by
  have lower := le_of_mem_seconds own
  have positive : 0 < nsPerSecond := by decide
  have none := countBefore_none late
  have neither : countBefore start more = 0 :=
    countBefore_none fun entry member => by linarith [late entry member]
  have short : countBefore (second + nsPerSecond) entries ≤ entries.length := List.countP_le_length
  rw [basis, basis, countBefore_append, countBefore_append, none, neither,
    List.take_append_of_le_length (by omega)]
  rfl

/-- A past unit's samples are not touched. -/
theorem unitSamples_append {more : List Entry} (opened : countBefore start entries < entries.length)
    (late : ∀ entry ∈ more, start + geometry.flushNs ≤ entry.2.timestampNs) :
    unitSamples geometry start (entries ++ more) = unitSamples geometry start entries := by
  refine List.flatMap_congr fun second member => ?_
  rw [secondSamples, basis_append member opened fun entry inside =>
    (end_of_mem_seconds member).trans (late entry inside), secondSamples]

/-! ## A unit's samples while its records come in -/

variable (geometry) in
/-- A unit that is sampled as far as the second `reach`. -/
structure Sampled (entries : List Entry) (start : Int) (unit : FlushUnit) (reach : Int) : Prop where
  sampled : ∀ second ∈ geometry.seconds start, second ∈ unit.sampled ↔ second < reach
  snapshots : unit.rows.snapshots = ((geometry.seconds start).filter (· < reach)).flatMap
    (secondSamples geometry start entries)
  /-- What is not sampled yet would be sampled from all the records. -/
  fresh : ∀ second ∈ geometry.seconds start, reach ≤ second → basis start second entries = entries

variable {unit other : FlushUnit} {reach : Int} {market : MarketState}

theorem Sampled.congr (given : Sampled geometry entries start unit reach)
    (sampled : other.sampled = unit.sampled) (rows : other.rows.snapshots = unit.rows.snapshots) :
    Sampled geometry entries start other reach where
  sampled := sampled ▸ given.sampled
  snapshots := rows.trans given.snapshots
  fresh := given.fresh

/-- A unit that a record opens. -/
theorem opened_sampled (earlier : ∀ before ∈ entries, before.2.timestampNs < start)
    (streamId resumeAfter : StreamId) :
    Sampled geometry (entries ++ [entry]) start (.opened start streamId resumeAfter) start where
  sampled := fun second member => by
    simpa [FlushUnit.opened] using le_of_mem_seconds member
  snapshots := by
    have none : (geometry.seconds start).filter (· < start) = [] :=
      List.filter_eq_nil_iff.mpr fun second member => by simpa using le_of_mem_seconds member
    rw [none]
    rfl
  fresh := fun second _ _ => by
    refine List.take_of_length_le ?_
    rw [countBefore_append, countBefore_all earlier, List.length_append, List.length_singleton]
    omega

theorem foldl_sampled (market : MarketState) (seconds : List Int) (unique : seconds.Nodup)
    (unit : FlushUnit) :
    (∀ second, second ∈ (seconds.foldl (ArchiveState.sampleSecond geometry market) unit).sampled ↔
        second ∈ unit.sampled ∨ second ∈ seconds) ∧
      (seconds.foldl (ArchiveState.sampleSecond geometry market) unit).rows.snapshots =
        unit.rows.snapshots ++ (seconds.filter (· ∉ unit.sampled)).flatMap
          (ArchiveState.snapshotRows geometry market) := by
  induction seconds generalizing unit with
  | nil => simp
  | cons first rest ih =>
      obtain ⟨absent, unique⟩ := List.nodup_cons.mp unique
      obtain ⟨sampled, rows⟩ := ih unique (ArchiveState.sampleSecond geometry market unit first)
      rw [List.foldl_cons]
      by_cases old : first ∈ unit.sampled
      · have same : ArchiveState.sampleSecond geometry market unit first = unit := if_pos old
        rw [same] at sampled rows ⊢
        refine ⟨fun second => ?_, by simpa [old] using rows⟩
        rw [sampled, List.mem_cons]
        by_cases here : second = first <;> simp [here, old]
      · have changed : ArchiveState.sampleSecond geometry market unit first =
            { unit with
              sampled := insert first unit.sampled
              rows := { unit.rows with snapshots := unit.rows.snapshots ++
                ArchiveState.snapshotRows geometry market first } } := if_neg old
        rw [changed] at sampled rows ⊢
        constructor
        · intro second
          rw [sampled, Finset.mem_insert, List.mem_cons]
          tauto
        · have others : rest.filter (· ∉ insert first unit.sampled) =
              rest.filter (· ∉ unit.sampled) := List.filter_congr fun second member => by
            have apart : second ≠ first := fun same => absent (same ▸ member)
            simp [apart]
          rw [rows, others, List.filter_cons_of_pos (by simpa using old), List.flatMap_cons,
            List.append_assoc]

/-- `_sample_until`, for one unit. -/
theorem Sampled.fill (given : Sampled geometry entries start unit reach)
    (same : market.books = (told geometry entries).books) (cutoff : Int) :
    Sampled geometry entries start
      (sampleEntry geometry market cutoff (start, unit)).2 (max reach cutoff) := by
  have ascending := seconds_ascending geometry start
  have taken : (geometry.seconds start).takeWhile (· < cutoff) =
      (geometry.seconds start).filter (· < cutoff) := ascending.takeWhile_lt cutoff
  have unique : ((geometry.seconds start).filter (· < cutoff)).Nodup :=
    (ascending.imp fun before => before.ne).filter _
  obtain ⟨sampled, rows⟩ := @foldl_sampled geometry market _ unique unit
  rw [sampleEntry, taken]
  refine ⟨fun second member => ?_, ?_, fun second member late => ?_⟩
  · rw [sampled, given.sampled second member, List.mem_filter, lt_max_iff]
    simp [member]
  · have more : ((geometry.seconds start).filter (· < cutoff)).filter (· ∉ unit.sampled) =
        ((geometry.seconds start).filter (· < cutoff)).filter (reach ≤ id ·) :=
      List.filter_congr fun second member => by
        simp [given.sampled second (List.mem_of_mem_filter member)]
    have all := ascending.filter_lt_max reach cutoff
    rw [rows, given.snapshots, more]
    refine Eq.trans ?_ (congrArg (List.flatMap (secondSamples geometry start entries)) all.symm)
    rw [List.flatMap_append]
    congr 1
    refine List.flatMap_congr fun second member => ?_
    obtain ⟨inside, late⟩ := List.mem_filter.mp member
    rw [secondSamples, given.fresh second (List.mem_of_mem_filter inside) (by simpa using late)]
    exact snapshotRows_congr same second
  · exact given.fresh second member (le_trans (le_max_left _ _) late)

/-- One more record, once the seconds it proves over were sampled. -/
theorem Sampled.snoc (given : Sampled geometry entries start unit reach)
    (opened : countBefore start entries < entries.length)
    (passed : ∀ second ∈ geometry.seconds start, second < reach →
      second + nsPerSecond ≤ entry.2.timestampNs)
    (ahead : ∀ second ∈ geometry.seconds start, reach ≤ second →
      ∀ before ∈ entries ++ [entry], before.2.timestampNs < second + nsPerSecond) :
    Sampled geometry (entries ++ [entry]) start unit reach where
  sampled := given.sampled
  snapshots := by
    refine given.snapshots.trans (List.flatMap_congr fun second member => ?_)
    obtain ⟨inside, early⟩ := List.mem_filter.mp member
    rw [secondSamples, secondSamples, basis_append inside opened fun other last => by
      rw [List.mem_singleton.mp last]
      exact passed second inside (by simpa using early)]
  fresh := fun second member late => by
    refine List.take_of_length_le ?_
    rw [countBefore_all (ahead second member late)]
    exact le_max_right _ _

theorem Sampled.complete (given : Sampled geometry entries start unit reach)
    (all : start + geometry.flushNs ≤ reach) :
    unit.rows.snapshots = unitSamples geometry start entries := by
  have whole : (geometry.seconds start).filter (· < reach) = geometry.seconds start :=
    List.filter_eq_self.mpr fun second member => by
      have ends := end_of_mem_seconds member
      have positive : 0 < nsPerSecond := by decide
      simp only [decide_eq_true_eq]
      linarith
  rw [given.snapshots, whole, unitSamples]

variable (geometry) in
/-- A unit whose samples go as far as some record proves its seconds over. -/
def Underway (entries : List Entry) (start : Int) (unit : FlushUnit) : Prop :=
  ∃ reach, Sampled geometry entries start unit reach ∧
    ∀ second ∈ geometry.seconds start, second < reach →
      ∃ entry ∈ entries, second + nsPerSecond ≤ entry.2.timestampNs

theorem Underway.congr (given : Underway geometry entries start unit)
    (sampled : other.sampled = unit.sampled) (rows : other.rows.snapshots = unit.rows.snapshots) :
    Underway geometry entries start other := by
  obtain ⟨reach, given, proved⟩ := given
  exact ⟨reach, given.congr sampled rows, proved⟩

theorem opened_underway (earlier : ∀ before ∈ entries, before.2.timestampNs < start)
    (streamId resumeAfter : StreamId) :
    Underway geometry (entries ++ [entry]) start (.opened start streamId resumeAfter) :=
  ⟨start, opened_sampled earlier streamId resumeAfter, fun _ member early =>
    absurd (le_of_mem_seconds member) (not_le.mpr early)⟩

/-- A whole second that starts before another ends before it. -/
theorem ends_of_lt {early late : Int} (first : nsPerSecond ∣ early) (second : nsPerSecond ∣ late)
    (before : early < late) : early + nsPerSecond ≤ late := by
  obtain ⟨low, rfl⟩ := first
  obtain ⟨high, rfl⟩ := second
  have positive : 0 < nsPerSecond := by decide
  have less : low + 1 ≤ high := Int.add_one_le_iff.mpr (lt_of_mul_lt_mul_left before positive.le)
  calc nsPerSecond * low + nsPerSecond = nsPerSecond * (low + 1) := by ring
    _ ≤ nsPerSecond * high := Int.mul_le_mul_of_nonneg_left less positive.le

theorem secondStart_bounds (timestampNs : Int) : secondStart timestampNs ≤ timestampNs ∧
    timestampNs < secondStart timestampNs + nsPerSecond ∧ nsPerSecond ∣ secondStart timestampNs := by
  have positive : 0 < nsPerSecond := by decide
  have upper := Int.lt_ediv_add_one_mul_self timestampNs positive
  refine ⟨Int.ediv_mul_le _ positive.ne', ?_, Dvd.intro_left _ rfl⟩
  rw [secondStart]
  linarith

theorem dvd_of_mem_seconds (whole : nsPerSecond ∣ start) (member : second ∈ geometry.seconds start) :
    nsPerSecond ∣ second := by
  obtain ⟨index, -, rfl⟩ := mem_seconds.mp member
  exact Int.dvd_add whole (Int.dvd_mul_left _ _)

/-- Sampling before a record, and the record. -/
theorem Underway.sample (given : Underway geometry entries start unit)
    (same : market.books = (told geometry entries).books) (whole : nsPerSecond ∣ start)
    (timed : Timed (entries ++ [entry])) (opened : countBefore start entries < entries.length) :
    ∃ reach, Sampled geometry (entries ++ [entry]) start
        (sampleEntry geometry market (secondStart entry.2.timestampNs) (start, unit)).2
        (max reach (secondStart entry.2.timestampNs)) ∧
      ∀ second ∈ geometry.seconds start, second < max reach (secondStart entry.2.timestampNs) →
        second + nsPerSecond ≤ entry.2.timestampNs := by
  obtain ⟨reach, given, proved⟩ := given
  obtain ⟨lower, upper, parts⟩ := secondStart_bounds entry.2.timestampNs
  have latest := (List.pairwise_append.mp timed).2.2
  have passed : ∀ second ∈ geometry.seconds start,
      second < max reach (secondStart entry.2.timestampNs) →
        second + nsPerSecond ≤ entry.2.timestampNs := by
    intro second member early
    rcases lt_max_iff.mp early with sampled | ended
    · obtain ⟨before, inside, ends⟩ := proved second member sampled
      exact ends.trans (latest before inside entry (by simp))
    · exact (ends_of_lt (dvd_of_mem_seconds whole member) parts ended).trans lower
  refine ⟨reach, (given.fill same _).snoc opened passed fun second member late before inside => ?_,
    passed⟩
  have newest : before.2.timestampNs ≤ entry.2.timestampNs := by
    cases List.mem_append.mp inside with
    | inl old => exact latest before old entry (by simp)
    | inr last => rw [List.mem_singleton.mp last]
  have reached := le_trans (le_max_right reach _) late
  linarith

theorem Underway.step (given : Underway geometry entries start unit)
    (same : market.books = (told geometry entries).books) (whole : nsPerSecond ∣ start)
    (timed : Timed (entries ++ [entry])) (opened : countBefore start entries < entries.length) :
    Underway geometry (entries ++ [entry]) start
      (sampleEntry geometry market (secondStart entry.2.timestampNs) (start, unit)).2 := by
  obtain ⟨reach, sampled, passed⟩ := given.sample same whole timed opened
  exact ⟨_, sampled, fun second member early =>
    ⟨entry, List.mem_append_right _ (List.mem_singleton_self _), passed second member early⟩⟩

/-- A record of a later unit: every second was sampled. -/
theorem Underway.complete (given : Underway geometry entries start unit)
    (same : market.books = (told geometry entries).books) (whole : nsPerSecond ∣ start)
    (timed : Timed (entries ++ [entry])) (opened : countBefore start entries < entries.length)
    (later : start + geometry.flushNs ≤ unitOf geometry entry) :
    (sampleEntry geometry market (secondStart entry.2.timestampNs) (start, unit)).2.rows.snapshots =
      unitSamples geometry start (entries ++ [entry]) := by
  obtain ⟨reach, sampled, -⟩ := given.sample same whole timed opened
  refine sampled.complete (later.trans (le_trans ?_ (le_max_right _ _)))
  have entered := geometry.unitStart_le entry.2.timestampNs
  have parts := geometry.seconds_dvd entry.2.timestampNs
  obtain ⟨lower, upper, divides⟩ := secondStart_bounds entry.2.timestampNs
  by_contra early
  have ends := ends_of_lt divides parts (not_le.mp early)
  rw [unitOf] at early
  linarith

/-- The end of a run: every second is sampled from all the records. -/
theorem Underway.finish (given : Underway geometry entries start unit)
    (same : market.books = (told geometry entries).books) :
    (sampleEntry geometry market (start + geometry.flushNs) (start, unit)).2.rows.snapshots =
      unitSamples geometry start entries := by
  obtain ⟨reach, given, -⟩ := given
  exact (given.fill same _).complete (le_max_right _ _)

end QuantArena.Archive
