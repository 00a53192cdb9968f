import QuantArena.Backtest.Runner
import QuantArena.Foundations.Dict

/-! The bars of a range of minutes: what each is made of, and in which coordinates it says
where it begins. -/

set_option autoImplicit false

namespace QuantArena.Backtest

open Foundations

/-- `range(0, length - width + 1, width)`: where each whole bucket starts. -/
def bucketStarts (length width : Nat) : List Nat :=
  (List.range ((length + 1 - width + width - 1) / width)).map (· * width)

/-- A bucket is never empty. -/
def bucketBar (index start : Nat) (bucket : List Int) : Bar where
  index := index
  firstMinute := start
  openTicks := bucket.headD 0
  highTicks := bucket.max?.getD 0
  lowTicks := bucket.min?.getD 0
  closeTicks := bucket.getLastD 0

/-- A trailing partial bucket is dropped. -/
def buildBars (closes : List Int) (barMinutes : Int) : Except Fault (List Bar) :=
  if barMinutes < 1 then .error (.raised s!"bar_minutes must be at least 1, got {barMinutes}")
  else
    let width := barMinutes.toNat
    .ok ((bucketStarts closes.length width).zipIdx.map fun bucket =>
      bucketBar bucket.2 bucket.1 ((closes.drop bucket.1).take width))

/-- Where a range ends, of so many minutes. -/
def rangeEnd (lastMinute : Option Int) (available : Nat) : Int :=
  match lastMinute with
  | none => available
  | some last => min last available

/-- The history is the whole dataset, read before. -/
def loadBars (history : Dict String (List Int)) (symbol : String) (barMinutes firstMinute : Int)
    (lastMinute : Option Int) : Except Fault (List Bar) := do
  let closes ← orMissing (history.get? symbol)
  let available := closes.length
  let stop := rangeEnd lastMinute available
  if firstMinute < 0 ∨ firstMinute ≥ stop then
    .error (.raised
      s!"the requested range is empty: minutes {firstMinute}..{stop} of {available} available")
  else
    -- Sliced before the bars are built, which count their minutes from here.
    buildBars ((closes.drop firstMinute.toNat).take (stop - firstMinute).toNat) barMinutes

/-! ## What a load returns -/

/-- As many bars of `width` closes from a minute on, numbered from that minute. -/
def barsFrom (closes : List Int) (width first count : Nat) : List Bar :=
  (List.range count).map fun place =>
    bucketBar place (place * width) ((closes.drop (first + place * width)).take width)

variable {closes : List Int} {barMinutes : Int} {bars : List Bar}

theorem bucketStarts_eq (length : Nat) {width : Nat} (wide : 0 < width) :
    bucketStarts length width = (List.range (length / width)).map (· * width) := by
  have count : (length + 1 - width + width - 1) / width = length / width := by
    by_cases whole : width ≤ length
    · have all : length + 1 - width + width - 1 = length := by omega
      rw [all]
    · have rest : length + 1 - width + width - 1 = width - 1 := by omega
      rw [rest, Nat.div_eq_of_lt (by omega), Nat.div_eq_of_lt (by omega)]
  rw [bucketStarts, count]

/-- The whole buckets of a slice are those of the dataset. -/
theorem buildBars_slice (first : Nat) {length : Nat} (fits : first + length ≤ closes.length)
    (wide : 1 ≤ barMinutes) :
    buildBars ((closes.drop first).take length) barMinutes =
      .ok (barsFrom closes barMinutes.toNat first (length / barMinutes.toNat)) := by
  have size : ((closes.drop first).take length).length = length := by
    rw [List.length_take, List.length_drop]
    omega
  unfold buildBars
  rw [if_neg (by omega), size]
  dsimp only
  rw [bucketStarts_eq length (by omega)]
  generalize barMinutes.toNat = width
  refine congrArg Except.ok (List.ext_getElem? fun place => ?_)
  simp only [barsFrom, List.getElem?_map, List.getElem?_zipIdx]
  cases reached : (List.range (length / width))[place]? with
  | none => rfl
  | some own =>
      obtain ⟨inside, same⟩ := List.getElem?_eq_some_iff.mp reached
      rw [List.length_range] at inside
      rw [List.getElem_range] at same
      have reach : place * width + width ≤ length := by
        have whole := Nat.mul_le_mul_right width (Nat.succ_le_of_lt inside)
        have all := Nat.div_mul_le_self length width
        rw [Nat.succ_mul] at whole
        omega
      simp only [Option.map_some, ← same, Nat.zero_add, List.drop_take, List.take_take,
        List.drop_drop]
      rw [Nat.min_eq_left (by omega)]

structure Loads (closes : List Int) (barMinutes firstMinute : Int) (lastMinute : Option Int)
    (bars : List Bar) : Prop where
  wide : 1 ≤ barMinutes
  starts : 0 ≤ firstMinute
  nonempty : firstMinute < rangeEnd lastMinute closes.length
  within : rangeEnd lastMinute closes.length ≤ closes.length
  listed : bars = barsFrom closes barMinutes.toNat firstMinute.toNat
    ((rangeEnd lastMinute closes.length - firstMinute).toNat / barMinutes.toNat)

theorem loads_of_ok {history : Dict String (List Int)} {symbol : String} {firstMinute : Int}
    {lastMinute : Option Int} (recorded : history.get? symbol = some closes)
    (loaded : loadBars history symbol barMinutes firstMinute lastMinute = .ok bars) :
    Loads closes barMinutes firstMinute lastMinute bars := by
  have within : rangeEnd lastMinute closes.length ≤ closes.length := by
    unfold rangeEnd
    split
    · exact le_rfl
    · exact min_le_right _ _
  unfold loadBars at loaded
  simp only [recorded, orMissing_some, Fault.ok_bind] at loaded
  split at loaded
  · cases loaded
  · rename_i accepted
    simp only [not_or, not_lt, ge_iff_le, not_le] at accepted
    obtain ⟨starts, nonempty⟩ := accepted
    by_cases wide : 1 ≤ barMinutes
    · rw [buildBars_slice firstMinute.toNat (by omega) wide] at loaded
      exact ⟨wide, starts, nonempty, within, (Except.ok.inj loaded).symm⟩
    · rw [buildBars, if_pos (by omega)] at loaded
      cases loaded

/-! ## Absolute minutes -/

def Bar.prices (bar : Bar) : Int × Int × Int × Int :=
  (bar.openTicks, bar.highTicks, bar.lowTicks, bar.closeTicks)

/-- The bar says in minutes of the dataset where it begins, and its prices are those of the
closes from there. -/
structure Absolute (closes : List Int) (width first place : Nat) (bar : Bar) : Prop where
  minute : bar.firstMinute = first + place * width
  inside : bar.firstMinute + width ≤ closes.length
  prices : bar.prices =
    (bucketBar 0 0 ((closes.drop bar.firstMinute.toNat).take width)).prices

theorem getElem?_barsFrom {width first count place : Nat} {bar : Bar}
    (found : (barsFrom closes width first count)[place]? = some bar) :
    place < count ∧ bar = bucketBar place (place * width)
      ((closes.drop (first + place * width)).take width) := by
  rw [barsFrom, List.getElem?_map, Option.map_eq_some_iff] at found
  obtain ⟨own, reached, rfl⟩ := found
  obtain ⟨inside, same⟩ := List.getElem?_eq_some_iff.mp reached
  rw [List.length_range] at inside
  rw [List.getElem_range] at same
  exact ⟨inside, by rw [same]⟩

variable {firstMinute : Int} {lastMinute : Option Int}

theorem Loads.absolute_iff (loads : Loads closes barMinutes firstMinute lastMinute bars) :
    (∀ place bar, bars[place]? = some bar →
        Absolute closes barMinutes.toNat firstMinute.toNat place bar) ↔
      firstMinute = 0 ∨ rangeEnd lastMinute closes.length - firstMinute < barMinutes := by
  obtain ⟨wide, starts, nonempty, within, rfl⟩ := loads
  constructor
  · intro absolute
    by_cases whole : rangeEnd lastMinute closes.length - firstMinute < barMinutes
    · exact .inr whole
    · -- The first bar says that it begins at minute 0.
      have present : 0 < (rangeEnd lastMinute closes.length - firstMinute).toNat /
          barMinutes.toNat := Nat.div_pos (by omega) (by omega)
      have minute := (absolute 0 _ (by
        rw [barsFrom, List.getElem?_map, List.getElem?_range present, Option.map_some])).minute
      simp only [bucketBar, Nat.zero_mul, Nat.cast_zero] at minute
      exact .inl (by omega)
  · intro condition place bar found
    obtain ⟨inside, rfl⟩ := getElem?_barsFrom found
    have reach : place * barMinutes.toNat + barMinutes.toNat ≤
        (rangeEnd lastMinute closes.length - firstMinute).toNat := by
      have whole := Nat.mul_le_mul_right barMinutes.toNat (Nat.succ_le_of_lt inside)
      have all := Nat.div_mul_le_self (rangeEnd lastMinute closes.length - firstMinute).toNat
        barMinutes.toNat
      rw [Nat.succ_mul] at whole
      omega
    cases condition with
    | inl zero =>
        subst zero
        refine ⟨by simp [bucketBar], ?_, ?_⟩
        · simp only [bucketBar]
          omega
        · simp only [Bar.prices, bucketBar, Int.toNat_natCast, Int.toNat_zero, Nat.zero_add]
    | inr short =>
        rw [Nat.div_eq_of_lt (by omega)] at inside
        cases inside

/-- Consecutive runs of bars hold the prices of one run. -/
theorem prices_barsFrom_add (closes : List Int) (width first earlier later : Nat) :
    (barsFrom closes width first (earlier + later)).map Bar.prices =
      (barsFrom closes width first earlier ++
        barsFrom closes width (first + earlier * width) later).map Bar.prices := by
  simp only [barsFrom, List.range_add, List.map_append, List.map_map]
  refine congrArg _ (List.map_congr_left fun place _ => ?_)
  have start : first + (earlier + place) * width = first + earlier * width + place * width := by
    rw [Nat.add_mul, Nat.add_assoc]
  simp only [Function.comp_apply, start]
  rfl

theorem minutes_barsFrom (closes : List Int) (width first count : Nat) :
    (barsFrom closes width first count).map Bar.firstMinute =
      (List.range count).map fun place => ((place * width : Nat) : Int) := by
  rw [barsFrom, List.map_map]
  rfl

/-- The minutes of two runs start over with the second, if it holds a bar at all. -/
theorem minutes_append_iff (closes : List Int) {width first earlier later : Nat} (wide : 0 < width)
    (holds : 0 < earlier) :
    (barsFrom closes width first earlier ++
        barsFrom closes width (first + earlier * width) later).map Bar.firstMinute =
      (barsFrom closes width first (earlier + later)).map Bar.firstMinute ↔ later = 0 := by
  rw [List.map_append, minutes_barsFrom, minutes_barsFrom, minutes_barsFrom]
  constructor
  · intro same
    by_contra more
    have here := congrArg (·[earlier]?) same
    have outside : ((List.range earlier).map fun place =>
        ((place * width : Nat) : Int)).length ≤ earlier := by simp
    rw [List.getElem?_append_right outside] at here
    simp only [List.length_map, List.length_range, Nat.sub_self, List.getElem?_map,
      List.getElem?_range (Nat.pos_of_ne_zero more),
      List.getElem?_range (Nat.lt_add_of_pos_right (Nat.pos_of_ne_zero more)), Option.map_some,
      Option.some.injEq, Nat.cast_inj] at here
    have positive := Nat.mul_pos holds wide
    omega
  · rintro rfl
    simp

/-- What two adjacent ranges give, if the first holds whole bars only. -/
theorem Loads.append {middle : Int} {earlier later whole : List Bar}
    (first : Loads closes barMinutes firstMinute (some middle) earlier)
    (second : Loads closes barMinutes middle lastMinute later)
    (union : Loads closes barMinutes firstMinute lastMinute whole)
    (aligned : (middle - firstMinute) % barMinutes = 0) :
    (earlier ++ later).map Bar.prices = whole.map Bar.prices ∧
      ((earlier ++ later).map Bar.firstMinute = whole.map Bar.firstMinute ↔
        rangeEnd lastMinute closes.length - middle < barMinutes) := by
  obtain ⟨wide, starts, nonempty, -, rfl⟩ := first
  obtain ⟨-, -, more, within, rfl⟩ := second
  obtain ⟨-, -, -, -, rfl⟩ := union
  have inner : rangeEnd (some middle) closes.length = middle := min_eq_left (by omega)
  rw [inner] at nonempty ⊢
  generalize rangeEnd lastMinute closes.length = stop at *
  -- As many whole bars as the first range holds.
  obtain ⟨count, split⟩ := Int.dvd_of_emod_eq_zero aligned
  have positive : 0 < count := by
    by_contra none
    have most := Int.mul_nonpos_of_nonneg_of_nonpos (by omega : 0 ≤ barMinutes) (not_lt.mp none)
    omega
  have bars : (middle - firstMinute).toNat = count.toNat * barMinutes.toNat := by
    rw [split, Int.toNat_mul (by omega) positive.le, Nat.mul_comm]
  have place : middle.toNat = firstMinute.toNat + count.toNat * barMinutes.toNat := by omega
  have total : (stop - firstMinute).toNat =
      (stop - middle).toNat + count.toNat * barMinutes.toNat := by omega
  have width : 0 < barMinutes.toNat := by omega
  rw [bars, Nat.mul_div_cancel _ width, place, total, Nat.add_mul_div_right _ _ width,
    Nat.add_comm _ count.toNat]
  refine ⟨(prices_barsFrom_add _ _ _ _ _).symm, ?_⟩
  rw [minutes_append_iff closes width (by omega), Nat.div_eq_zero_iff]
  omega

/-- The bars of a range are the dataset's where the range begins with the dataset, or holds no
whole bar. Adjacent ranges give the prices of their union, and its minutes only where the second
one holds no whole bar. -/
theorem range_bars_absolute_iff (history : Dict String (List Int)) (symbol : String)
    (closes : List Int) (barMinutes firstMinute : Int) (lastMinute : Option Int)
    (bars : List Bar) (recorded : history.get? symbol = some closes)
    (loaded : loadBars history symbol barMinutes firstMinute lastMinute = .ok bars) :
    ((∀ place bar, bars[place]? = some bar →
        Absolute closes barMinutes.toNat firstMinute.toNat place bar) ↔
      firstMinute = 0 ∨ rangeEnd lastMinute closes.length - firstMinute < barMinutes) ∧
    ∀ (middle : Int) (earlier later : List Bar),
      loadBars history symbol barMinutes firstMinute (some middle) = .ok earlier →
      loadBars history symbol barMinutes middle lastMinute = .ok later →
      (middle - firstMinute) % barMinutes = 0 →
      (earlier ++ later).map Bar.prices = bars.map Bar.prices ∧
        ((earlier ++ later).map Bar.firstMinute = bars.map Bar.firstMinute ↔
          rangeEnd lastMinute closes.length - middle < barMinutes) := by
  have union := loads_of_ok recorded loaded
  refine ⟨union.absolute_iff, fun middle earlier later first second aligned => ?_⟩
  exact (loads_of_ok recorded first).append (loads_of_ok recorded second) union aligned

def fourCloses : Dict String (List Int) := Dict.empty.set "QAA" [10, 11, 12, 13]

theorem four_closes_absolute :
    Absolute [10, 11, 12, 13] 2 0 0 (bucketBar 0 0 [10, 11]) ∧
      Absolute [10, 11, 12, 13] 2 0 1 (bucketBar 1 2 [12, 13]) := by
  have absolute :=
    (range_bars_absolute_iff fourCloses "QAA" [10, 11, 12, 13] 2 0 none _ rfl rfl).1.mpr (.inl rfl)
  exact ⟨absolute 0 _ rfl, absolute 1 _ rfl⟩

/-- The bar of minutes 2 and 3 says that it begins at minute 0. -/
theorem second_half_starts_over :
    loadBars fourCloses "QAA" 2 2 (some 4) = .ok [bucketBar 0 0 [12, 13]] ∧
      ¬ Absolute [10, 11, 12, 13] 2 2 0 (bucketBar 0 0 [12, 13]) ∧
      loadBars fourCloses "QAA" 2 0 (some 2) = .ok [bucketBar 0 0 [10, 11]] ∧
      loadBars fourCloses "QAA" 2 0 (some 4) =
        .ok [bucketBar 0 0 [10, 11], bucketBar 1 2 [12, 13]] ∧
      [bucketBar 0 0 [10, 11], bucketBar 0 0 [12, 13]].map Bar.firstMinute ≠
        [bucketBar 0 0 [10, 11], bucketBar 1 2 [12, 13]].map Bar.firstMinute := by
  refine ⟨rfl, fun absolute => ?_, rfl, rfl, by decide⟩
  have minute := absolute.minute
  revert minute
  decide

end QuantArena.Backtest
