import QuantArena.Archiver.State
import QuantArena.Fanout.Candles

/-! How moments, buckets and flush units lie to each other, and what the outbound stream
says of one unit: its prints, and the bars they are cut into. -/

set_option autoImplicit false

namespace QuantArena.Archive

open Foundations Contracts Fanout

abbrev Entry := StreamId × Outbound

/-! ## Units -/

namespace Geometry

variable (geometry : Geometry)

theorem flushNs_pos : 0 < geometry.flushNs :=
  Int.mul_pos (lt_of_lt_of_le Int.one_pos geometry.positive) (by decide)

theorem unitStart_le (timestampNs : Int) : geometry.unitStart timestampNs ≤ timestampNs :=
  Int.ediv_mul_le _ geometry.flushNs_pos.ne'

theorem unitStart_mono {early late : Int} (before : early ≤ late) :
    geometry.unitStart early ≤ geometry.unitStart late :=
  Int.mul_le_mul_of_nonneg_right (Int.ediv_le_ediv geometry.flushNs_pos before)
    geometry.flushNs_pos.le

theorem unitStart_unitStart (timestampNs : Int) :
    geometry.unitStart (geometry.unitStart timestampNs) = geometry.unitStart timestampNs := by
  rw [unitStart, unitStart, Int.mul_ediv_cancel _ geometry.flushNs_pos.ne']

/-- Of two units, the earlier one has ended where the later one starts. -/
theorem ends_before {early late : Int} (apart : geometry.unitStart early < geometry.unitStart late) :
    geometry.unitStart early + geometry.flushNs ≤ geometry.unitStart late := by
  have quotients : early / geometry.flushNs < late / geometry.flushNs :=
    lt_of_mul_lt_mul_right apart geometry.flushNs_pos.le
  calc geometry.unitStart early + geometry.flushNs
      = (early / geometry.flushNs + 1) * geometry.flushNs := by rw [unitStart]; ring
    _ ≤ late / geometry.flushNs * geometry.flushNs :=
        Int.mul_le_mul_of_nonneg_right (Int.add_one_le_iff.mpr quotients) geometry.flushNs_pos.le

/-- A record of an earlier unit comes before the start of a later one. -/
theorem before_unit {early late : Int} (apart : geometry.unitStart early < geometry.unitStart late) :
    early < geometry.unitStart late := by
  by_contra after
  exact absurd (geometry.unitStart_mono (not_lt.mp after)) (not_le.mpr (by
    rwa [geometry.unitStart_unitStart]))

theorem seconds_dvd (timestampNs : Int) : nsPerSecond ∣ geometry.unitStart timestampNs :=
  Dvd.dvd.mul_left (Dvd.intro_left _ rfl) _

variable {geometry} {width : BarWidth} (configured : width ∈ geometry.barWidths)
include configured

theorem width_dvd : width.val * nsPerSecond ∣ geometry.flushNs :=
  Int.mul_dvd_mul_right _ (geometry.divides width configured)

/-- A bucket lies in one unit. -/
theorem unitStart_bucketStart (timestampNs : Int) :
    geometry.unitStart (width.bucketStart timestampNs) = geometry.unitStart timestampNs := by
  have positive : 0 < width.val * nsPerSecond := Int.mul_pos width.property (by decide)
  obtain ⟨many, whole⟩ := width_dvd configured
  simp only [unitStart, BarWidth.bucketStart, whole]
  rw [← Int.ediv_ediv_of_nonneg positive.le, ← Int.ediv_ediv_of_nonneg positive.le,
    Int.mul_ediv_cancel _ positive.ne']

/-- A bucket has ended where its unit has. -/
theorem bucket_ends (timestampNs : Int) :
    width.bucketStart timestampNs + width * nsPerSecond ≤
      geometry.unitStart timestampNs + geometry.flushNs := by
  have positive : 0 < width.val * nsPerSecond := Int.mul_pos width.property (by decide)
  have unit := geometry.flushNs_pos
  obtain ⟨many, whole⟩ := width_dvd configured
  have several : 0 < many := pos_of_mul_pos_right (whole ▸ unit) positive.le
  simp only [unitStart, BarWidth.bucketStart, whole]
  rw [← Int.ediv_ediv_of_nonneg positive.le]
  generalize timestampNs / (width.val * nsPerSecond) = bucket
  have inside : bucket + 1 ≤ (bucket / many + 1) * many :=
    Int.add_one_le_iff.mpr (Int.lt_ediv_add_one_mul_self bucket several)
  calc bucket * (width.val * nsPerSecond) + width.val * nsPerSecond
      = (bucket + 1) * (width.val * nsPerSecond) := by ring
    _ ≤ (bucket / many + 1) * many * (width.val * nsPerSecond) :=
        Int.mul_le_mul_of_nonneg_right inside positive.le
    _ = _ := by ring

end Geometry

/-! ## What the stream says of a unit -/

/-- The print of a fill, numbered by its record. -/
def printOf : Entry → Option Trade
  | (streamId, .fill fill) => some
      ⟨fill.symbolId, fill.priceTicks, fill.qty, fill.aggressorSide, fill.timestampNs, streamId⟩
  | _ => none

variable (geometry : Geometry)

def unitOf (entry : Entry) : Int := geometry.unitStart entry.2.timestampNs

/-- The prints of one unit. -/
def unitPrints (start : Int) (entries : List Entry) : List Trade :=
  (entries.filterMap printOf).filter fun trade => geometry.unitStart trade.timestampNs = start

/-- The prints of one unit and one symbol. -/
def symbolPrints (symbolId start : Int) (entries : List Entry) : List Trade :=
  (unitPrints geometry start entries).filter fun trade => trade.symbolId = symbolId

/-- The bars of one unit and one symbol. -/
def symbolBars (symbolId start : Int) (entries : List Entry) : List Bar :=
  barsOf geometry.barWidths symbolId (symbolPrints geometry symbolId start entries)

/-- Timestamps do not go back. -/
def Timed (entries : List Entry) : Prop :=
  entries.Pairwise fun early late => early.2.timestampNs ≤ late.2.timestampNs

instance (entries : List Entry) : Decidable (Timed entries) := List.instDecidablePairwise ..

variable {geometry} {symbolId start : Int} {entries first second : List Entry} {entry : Entry}
  {trade : Trade}

theorem printOf_timestampNs (printed : printOf entry = some trade) :
    trade.timestampNs = entry.2.timestampNs := by
  unfold printOf at printed
  split at printed
  · cases printed
    rfl
  · cases printed

theorem printOf_seq (printed : printOf entry = some trade) : trade.seq = entry.1 := by
  unfold printOf at printed
  split at printed
  · cases printed
    rfl
  · cases printed

theorem unitPrints_append (first second : List Entry) :
    unitPrints geometry start (first ++ second) =
      unitPrints geometry start first ++ unitPrints geometry start second := by
  simp [unitPrints]

theorem symbolPrints_append (first second : List Entry) :
    symbolPrints geometry symbolId start (first ++ second) =
      symbolPrints geometry symbolId start first ++ symbolPrints geometry symbolId start second := by
  simp [symbolPrints, unitPrints_append]

/-- Nothing is printed in a unit by the records of others. -/
theorem unitPrints_of_ne (others : ∀ entry ∈ entries, unitOf geometry entry ≠ start) :
    unitPrints geometry start entries = [] := by
  refine List.filter_eq_nil_iff.mpr fun trade member => ?_
  obtain ⟨entry, inside, printed⟩ := List.mem_filterMap.mp member
  simpa [printOf_timestampNs printed, unitOf] using others entry inside

theorem symbolPrints_of_ne (others : ∀ entry ∈ entries, unitOf geometry entry ≠ start) :
    symbolPrints geometry symbolId start entries = [] := by
  rw [symbolPrints, unitPrints_of_ne others, List.filter_nil]

theorem mem_symbolPrints : trade ∈ symbolPrints geometry symbolId start entries ↔
    ∃ entry ∈ entries, printOf entry = some trade ∧ unitOf geometry entry = start ∧
      trade.symbolId = symbolId := by
  simp only [symbolPrints, unitPrints, List.mem_filter, List.mem_filterMap, decide_eq_true_eq]
  constructor
  · rintro ⟨⟨⟨entry, inside, printed⟩, unit⟩, symbol⟩
    exact ⟨entry, inside, printed, by rw [unitOf, ← printOf_timestampNs printed, unit], symbol⟩
  · rintro ⟨entry, inside, printed, unit, symbol⟩
    exact ⟨⟨⟨entry, inside, printed⟩, by rw [printOf_timestampNs printed]; exact unit⟩, symbol⟩

theorem Timed.prints (timed : Timed entries) :
    InOrder (symbolPrints geometry symbolId start entries) := by
  have all : InOrder (entries.filterMap printOf) :=
    List.Pairwise.filterMap printOf (fun early late before first printed second printed' => by
      rw [printOf_timestampNs printed, printOf_timestampNs printed']
      exact before) timed
  exact (all.filter _).filter _

end QuantArena.Archive
