import Mathlib.Data.List.Nodup
import Mathlib.Algebra.BigOperators.Group.List.Basic
import Mathlib.Algebra.Order.BigOperators.Group.List
import Mathlib.Algebra.Order.Ring.Int
import Mathlib.Tactic.Ring

/-! Finite maps iterated in insertion order. Rebinding a key keeps its place,
binding a fresh key appends it, and every observation goes through membership
of the entry list, whose keys are pairwise distinct by construction. -/

set_option autoImplicit false

namespace QuantArena.Foundations

/-- Where the elements under other keys give nothing. -/
theorem flatMap_of_one {α κ γ : Type} {key : α → κ} {items : List α} {item : α} {f : α → List γ}
    (unique : (items.map key).Nodup) (member : item ∈ items)
    (others : ∀ other ∈ items, key other ≠ key item → f other = []) : items.flatMap f = f item := by
  induction items with
  | nil => cases member
  | cons head rest ih =>
      obtain ⟨apart, later⟩ := List.nodup_cons.mp unique
      rw [List.flatMap_cons]
      cases member with
      | head =>
          have empty : rest.flatMap f = [] := List.flatMap_eq_nil_iff.mpr fun other inside =>
            others other (List.mem_cons_of_mem _ inside) fun same =>
              apart (same ▸ List.mem_map_of_mem inside)
          rw [empty, List.append_nil]
      | tail _ inside =>
          have first : f head = [] := others head List.mem_cons_self fun same =>
            apart (same ▸ List.mem_map_of_mem inside)
          rw [first, List.nil_append]
          exact ih later inside fun other inside => others other (List.mem_cons_of_mem _ inside)

/-- A finite map with a fixed iteration order. -/
structure Dict (κ ν : Type) where
  entries : List (κ × ν)
  unique : (entries.map Prod.fst).Nodup
deriving DecidableEq, Repr

namespace Dict

variable {κ ν : Type}

def empty : Dict κ ν := ⟨[], List.nodup_nil⟩

instance : Inhabited (Dict κ ν) := ⟨empty⟩

def keys (dict : Dict κ ν) : List κ := dict.entries.map Prod.fst

def values (dict : Dict κ ν) : List ν := dict.entries.map Prod.snd

def size (dict : Dict κ ν) : Nat := dict.entries.length

/-- Every stored value rewritten under its own key. -/
def mapValues {μ : Type} (dict : Dict κ ν) (f : κ → ν → μ) : Dict κ μ :=
  ⟨dict.entries.map fun entry => (entry.1, f entry.1 entry.2), by
    simpa [Function.comp_def] using dict.unique⟩

theorem entries_mapValues {μ : Type} (dict : Dict κ ν) (f : κ → ν → μ) :
    (dict.mapValues f).entries = dict.entries.map fun entry => (entry.1, f entry.1 entry.2) := rfl

theorem values_mapValues {μ : Type} (dict : Dict κ ν) (f : κ → ν → μ) :
    (dict.mapValues f).values = dict.entries.map fun entry => f entry.1 entry.2 := by
  simp [values, mapValues, Function.comp_def]

/-- The sum of a weight over every entry. -/
def total (dict : Dict κ ν) (weight : κ → ν → Int) : Int :=
  (dict.entries.map fun entry => weight entry.1 entry.2).sum

@[simp] theorem total_empty (weight : κ → ν → Int) : (empty : Dict κ ν).total weight = 0 := rfl

@[simp] theorem entries_empty : (empty : Dict κ ν).entries = [] := rfl

@[simp] theorem values_empty : (empty : Dict κ ν).values = [] := rfl

@[simp] theorem keys_empty : (empty : Dict κ ν).keys = [] := rfl

variable [DecidableEq κ]

def get? (dict : Dict κ ν) (key : κ) : Option ν :=
  (dict.entries.find? fun entry => entry.1 = key).map Prod.snd

def getD (dict : Dict κ ν) (key : κ) (default : ν) : ν :=
  (dict.get? key).getD default

def contains (dict : Dict κ ν) (key : κ) : Bool :=
  (dict.get? key).isSome

/-- The entries with `key` rebound in place, or appended when it was absent. -/
def setEntries (entries : List (κ × ν)) (key : κ) (value : ν) : List (κ × ν) :=
  if key ∈ entries.map Prod.fst then
    entries.map fun entry => if entry.1 = key then (key, value) else entry
  else entries ++ [(key, value)]

theorem setEntries_keys_nodup {entries : List (κ × ν)} (unique : (entries.map Prod.fst).Nodup)
    (key : κ) (value : ν) : ((setEntries entries key value).map Prod.fst).Nodup := by
  unfold setEntries
  split
  · have sameKeys : (entries.map fun entry => if entry.1 = key then (key, value) else entry).map
        Prod.fst = entries.map Prod.fst := by
      rw [List.map_map]
      apply List.map_congr_left
      intro entry _
      by_cases same : entry.1 = key <;> simp [same]
    rw [sameKeys]
    exact unique
  · rename_i fresh
    rw [List.map_append, List.nodup_append]
    refine ⟨unique, by simp, ?_⟩
    intro before member after singleton equal
    have same : after = key := by simpa using singleton
    exact fresh (same ▸ equal ▸ member)

def set (dict : Dict κ ν) (key : κ) (value : ν) : Dict κ ν :=
  ⟨setEntries dict.entries key value, setEntries_keys_nodup dict.unique key value⟩

def erase (dict : Dict κ ν) (key : κ) : Dict κ ν :=
  ⟨dict.entries.filter fun entry => entry.1 ≠ key, by
    refine List.Nodup.sublist ?_ dict.unique
    exact List.filter_sublist.map _⟩

/-! ## Lookup -/

theorem get?_eq_some_iff {dict : Dict κ ν} {key : κ} {value : ν} :
    dict.get? key = some value ↔ (key, value) ∈ dict.entries := by
  constructor
  · intro found
    obtain ⟨entry, located, rfl⟩ := Option.map_eq_some_iff.mp found
    have same : entry.1 = key := by simpa using List.find?_some located
    exact same ▸ List.mem_of_find?_eq_some located
  · intro member
    have hit : (dict.entries.find? fun entry => entry.1 = key).isSome := by
      rw [List.find?_isSome]
      exact ⟨_, member, by simp⟩
    obtain ⟨entry, located⟩ := Option.isSome_iff_exists.mp hit
    have same : entry.1 = key := by simpa using List.find?_some located
    have equal : entry = (key, value) :=
      List.inj_on_of_nodup_map dict.unique (List.mem_of_find?_eq_some located) member same
    simp only [get?, located, equal, Option.map_some]

theorem get?_eq_none_iff {dict : Dict κ ν} {key : κ} :
    dict.get? key = none ↔ key ∉ dict.keys := by
  rw [← not_iff_not, not_not, ← ne_eq, Option.ne_none_iff_exists']
  simp only [get?_eq_some_iff, keys, List.mem_map, Prod.exists, exists_and_right, exists_eq_right]

theorem mem_keys_iff {dict : Dict κ ν} {key : κ} :
    key ∈ dict.keys ↔ ∃ value, dict.get? key = some value := by
  simp only [get?_eq_some_iff, keys, List.mem_map, Prod.exists, exists_and_right, exists_eq_right]

theorem mem_values_iff {dict : Dict κ ν} {value : ν} :
    value ∈ dict.values ↔ ∃ key, dict.get? key = some value := by
  simp only [get?_eq_some_iff, values, List.mem_map, Prod.exists, exists_eq_right]

theorem contains_iff {dict : Dict κ ν} {key : κ} :
    dict.contains key = true ↔ key ∈ dict.keys := by
  rw [contains, Option.isSome_iff_exists, mem_keys_iff]

theorem contains_eq_false_iff {dict : Dict κ ν} {key : κ} :
    dict.contains key = false ↔ dict.get? key = none := by
  simp [contains]

@[simp] theorem get?_empty (key : κ) : (empty : Dict κ ν).get? key = none := rfl

/-! ## Rebinding -/

theorem mem_entries_set {dict : Dict κ ν} {key : κ} {value : ν} {entry : κ × ν} :
    entry ∈ (dict.set key value).entries ↔
      entry = (key, value) ∨ entry.1 ≠ key ∧ entry ∈ dict.entries := by
  simp only [set, setEntries]
  split
  · rename_i present
    simp only [List.mem_map]
    constructor
    · rintro ⟨before, member, rfl⟩
      by_cases same : before.1 = key
      · exact .inl (by simp [same])
      · exact .inr (by simpa [same] using member)
    · rintro (rfl | ⟨different, member⟩)
      · obtain ⟨before, member, same⟩ := List.mem_map.mp present
        exact ⟨before, member, by simp [same]⟩
      · exact ⟨entry, member, by simp [different]⟩
  · rename_i fresh
    simp only [List.mem_append, List.mem_singleton]
    constructor
    · rintro (member | rfl)
      · refine .inr ⟨?_, member⟩
        rintro rfl
        exact fresh (List.mem_map.mpr ⟨_, member, rfl⟩)
      · exact .inl rfl
    · rintro (rfl | ⟨_, member⟩)
      · exact .inr rfl
      · exact .inl member

@[simp] theorem get?_set_self (dict : Dict κ ν) (key : κ) (value : ν) :
    (dict.set key value).get? key = some value :=
  get?_eq_some_iff.mpr (mem_entries_set.mpr (.inl rfl))

theorem get?_set_of_ne (dict : Dict κ ν) {key other : κ} (value : ν) (different : other ≠ key) :
    (dict.set key value).get? other = dict.get? other := by
  apply Option.ext
  intro found
  rw [get?_eq_some_iff, get?_eq_some_iff, mem_entries_set]
  constructor
  · rintro (same | ⟨_, member⟩)
    · exact absurd (Prod.mk.inj same).1 different
    · exact member
  · exact fun member => .inr ⟨different, member⟩

theorem get?_set (dict : Dict κ ν) (key other : κ) (value : ν) :
    (dict.set key value).get? other = if other = key then some value else dict.get? other := by
  by_cases same : other = key
  · subst same
    simp
  · rw [get?_set_of_ne dict value same, if_neg same]

theorem getD_set (dict : Dict κ ν) (key other : κ) (value default : ν) :
    (dict.set key value).getD other default =
      if other = key then value else dict.getD other default := by
  unfold getD
  rw [get?_set]
  split <;> rfl

@[simp] theorem getD_set_self (dict : Dict κ ν) (key : κ) (value default : ν) :
    (dict.set key value).getD key default = value := by
  simp [getD]

theorem getD_set_of_ne (dict : Dict κ ν) {key other : κ} (value default : ν)
    (different : other ≠ key) :
    (dict.set key value).getD other default = dict.getD other default := by
  rw [getD_set, if_neg different]

theorem getD_of_get? {dict : Dict κ ν} {key : κ} {value : ν} (default : ν)
    (found : dict.get? key = some value) : dict.getD key default = value := by
  simp [getD, found]

theorem entries_set_fresh (dict : Dict κ ν) {key : κ} (value : ν)
    (fresh : dict.get? key = none) :
    (dict.set key value).entries = dict.entries ++ [(key, value)] := by
  have absent : key ∉ dict.entries.map Prod.fst := get?_eq_none_iff.mp fresh
  simp only [set, setEntries, if_neg absent]

theorem values_set_fresh (dict : Dict κ ν) {key : κ} (value : ν)
    (fresh : dict.get? key = none) :
    (dict.set key value).values = dict.values ++ [value] := by
  simp [values, entries_set_fresh dict value fresh]

theorem entries_set_present (dict : Dict κ ν) {key : κ} {old : ν} (value : ν)
    (present : dict.get? key = some old) :
    (dict.set key value).entries =
      dict.entries.map fun entry => if entry.1 = key then (key, value) else entry := by
  have member : key ∈ dict.entries.map Prod.fst :=
    List.mem_map.mpr ⟨_, get?_eq_some_iff.mp present, rfl⟩
  simp only [set, setEntries, if_pos member]

/-! ## Erasing -/

theorem mem_entries_erase {dict : Dict κ ν} {key : κ} {entry : κ × ν} :
    entry ∈ (dict.erase key).entries ↔ entry ∈ dict.entries ∧ entry.1 ≠ key := by
  simp [erase]

@[simp] theorem get?_erase_self (dict : Dict κ ν) (key : κ) :
    (dict.erase key).get? key = none := by
  rw [Option.eq_none_iff_forall_ne_some]
  intro value found
  exact (mem_entries_erase.mp (get?_eq_some_iff.mp found)).2 rfl

theorem get?_erase_of_ne (dict : Dict κ ν) {key other : κ} (different : other ≠ key) :
    (dict.erase key).get? other = dict.get? other := by
  apply Option.ext
  intro value
  rw [get?_eq_some_iff, get?_eq_some_iff, mem_entries_erase]
  exact ⟨And.left, fun member => ⟨member, different⟩⟩

theorem get?_erase (dict : Dict κ ν) (key other : κ) :
    (dict.erase key).get? other = if other = key then none else dict.get? other := by
  by_cases same : other = key
  · subst same
    simp
  · rw [get?_erase_of_ne dict same, if_neg same]

theorem getD_erase (dict : Dict κ ν) (key other : κ) (default : ν) :
    (dict.erase key).getD other default =
      if other = key then default else dict.getD other default := by
  unfold getD
  rw [get?_erase]
  split <;> rfl

theorem erase_eq_self {dict : Dict κ ν} {key : κ} (absent : dict.get? key = none) :
    dict.erase key = dict := by
  have kept : dict.entries.filter (fun entry => entry.1 ≠ key) = dict.entries := by
    rw [List.filter_eq_self]
    intro entry member
    simp only [ne_eq, decide_not, Bool.not_eq_eq_eq_not, Bool.not_true, decide_eq_false_iff_not]
    rintro rfl
    exact get?_eq_none_iff.mp absent (List.mem_map.mpr ⟨_, member, rfl⟩)
  cases dict
  simp only [erase, mk.injEq]
  exact kept

/-- Erasing keeps the iteration order of the remaining values. -/
theorem values_erase_of_keyed (dict : Dict κ ν) (keyOf : ν → κ)
    (keyed : ∀ key value, dict.get? key = some value → keyOf value = key) (key : κ) :
    (dict.erase key).values = dict.values.filter fun value => keyOf value ≠ key := by
  have entryKeyed : ∀ entry ∈ dict.entries, keyOf entry.2 = entry.1 := fun entry member =>
    keyed entry.1 entry.2 (get?_eq_some_iff.mpr member)
  simp only [erase, values, List.filter_map]
  congr 1
  apply List.filter_congr
  intro entry member
  simp [entryKeyed entry member]

theorem get?_mapValues {μ : Type} (dict : Dict κ ν) (f : κ → ν → μ) (key : κ) :
    (dict.mapValues f).get? key = (dict.get? key).map (f key) := by
  apply Option.ext
  intro value
  simp only [get?_eq_some_iff, mapValues, List.mem_map, Option.map_eq_some_iff]
  constructor
  · rintro ⟨entry, member, same⟩
    obtain ⟨rfl, rfl⟩ := Prod.mk.inj same
    exact ⟨entry.2, member, rfl⟩
  · rintro ⟨old, member, rfl⟩
    exact ⟨(key, old), member, rfl⟩

/-! ## Totals over the entries -/

theorem total_set_fresh (dict : Dict κ ν) (weight : κ → ν → Int) {key : κ} (value : ν)
    (fresh : dict.get? key = none) :
    (dict.set key value).total weight = dict.total weight + weight key value := by
  simp [total, entries_set_fresh dict value fresh]

private theorem sum_filter_ne {entries : List (κ × ν)} (unique : (entries.map Prod.fst).Nodup)
    (weight : κ → ν → Int) {key : κ} {value : ν} (member : (key, value) ∈ entries) :
    ((entries.filter fun entry => entry.1 ≠ key).map fun entry => weight entry.1 entry.2).sum =
      (entries.map fun entry => weight entry.1 entry.2).sum - weight key value := by
  induction entries with
  | nil => simp at member
  | cons head tail ih =>
      obtain ⟨absent, tailUnique⟩ := List.nodup_cons.mp unique
      rcases List.mem_cons.mp member with rfl | tailMember
      · have kept : tail.filter (fun entry => entry.1 ≠ key) = tail := by
          rw [List.filter_eq_self]
          intro entry entryMember
          simp only [ne_eq, decide_not, Bool.not_eq_eq_eq_not, Bool.not_true,
            decide_eq_false_iff_not]
          rintro rfl
          exact absent (List.mem_map.mpr ⟨entry, entryMember, rfl⟩)
        rw [List.filter_cons_of_neg (by simp), kept]
        simp
      · have different : head.1 ≠ key := by
          intro same
          subst same
          exact absent (List.mem_map.mpr ⟨_, tailMember, rfl⟩)
        rw [List.filter_cons_of_pos (by simpa using different)]
        simp only [List.map_cons, List.sum_cons]
        rw [ih tailUnique tailMember]
        ring

theorem total_erase (dict : Dict κ ν) (weight : κ → ν → Int) {key : κ} {value : ν}
    (found : dict.get? key = some value) :
    (dict.erase key).total weight = dict.total weight - weight key value :=
  sum_filter_ne dict.unique weight (get?_eq_some_iff.mp found)

private theorem sum_replace {entries : List (κ × ν)} (unique : (entries.map Prod.fst).Nodup)
    (weight : κ → ν → Int) {key : κ} {old : ν} (value : ν) (member : (key, old) ∈ entries) :
    ((entries.map fun entry => if entry.1 = key then (key, value) else entry).map
      fun entry => weight entry.1 entry.2).sum =
      (entries.map fun entry => weight entry.1 entry.2).sum - weight key old + weight key value := by
  induction entries with
  | nil => simp at member
  | cons head tail ih =>
      obtain ⟨absent, tailUnique⟩ := List.nodup_cons.mp unique
      rcases List.mem_cons.mp member with rfl | tailMember
      · have kept : (tail.map fun entry => if entry.1 = key then (key, value) else entry) = tail := by
          conv_rhs => rw [← List.map_id tail]
          apply List.map_congr_left
          intro entry entryMember
          rw [if_neg, id]
          rintro rfl
          exact absent (List.mem_map.mpr ⟨entry, entryMember, rfl⟩)
        rw [List.map_cons, kept]
        simp
        ring
      · have different : head.1 ≠ key := by
          intro same
          subst same
          exact absent (List.mem_map.mpr ⟨_, tailMember, rfl⟩)
        simp only [List.map_cons, List.sum_cons, if_neg different]
        rw [ih tailUnique tailMember]
        ring

theorem total_set_present (dict : Dict κ ν) (weight : κ → ν → Int) {key : κ} {old : ν} (value : ν)
    (present : dict.get? key = some old) :
    (dict.set key value).total weight = dict.total weight - weight key old + weight key value := by
  rw [total, entries_set_present dict value present]
  exact sum_replace dict.unique weight value (get?_eq_some_iff.mp present)

/-! ## Changing an entry that may be there -/

/-- The value under `key` replaced by what it becomes, or erased. An absent key stays absent. -/
def alter (dict : Dict κ ν) (key : κ) (change : ν → Option ν) : Dict κ ν :=
  match dict.get? key with
  | none => dict
  | some value =>
      match change value with
      | none => dict.erase key
      | some next => dict.set key next

theorem entries_alter (dict : Dict κ ν) (key : κ) (change : ν → Option ν) :
    (dict.alter key change).entries = dict.entries.filterMap fun entry =>
      if entry.1 = key then (change entry.2).map (Prod.mk key) else some entry := by
  unfold alter
  cases found : dict.get? key with
  | none =>
      have absent := get?_eq_none_iff.mp found
      rw [List.filterMap_congr (g := some), List.filterMap_some]
      intro entry member
      rw [if_neg]
      intro same
      exact absent (List.mem_map.mpr ⟨entry, member, same⟩)
  | some value =>
      have only : ∀ entry ∈ dict.entries, entry.1 = key → entry.2 = value := by
        intro entry member same
        have bound := get?_eq_some_iff.mpr member
        rw [same, found] at bound
        exact (Option.some.inj bound).symm
      cases changed : change value with
      | none =>
          simp only [changed, erase]
          rw [← List.filterMap_eq_filter]
          apply List.filterMap_congr
          intro entry member
          by_cases same : entry.1 = key
          · simp [same, only entry member same, changed]
          · simp [same]
      | some next =>
          simp only [changed]
          rw [entries_set_present dict next found, ← List.filterMap_eq_map]
          apply List.filterMap_congr
          intro entry member
          by_cases same : entry.1 = key
          · simp [same, only entry member same, changed]
          · simp [same]

theorem get?_alter (dict : Dict κ ν) (key other : κ) (change : ν → Option ν) :
    (dict.alter key change).get? other =
      if other = key then (dict.get? key).bind change else dict.get? other := by
  cases found : dict.get? key with
  | none =>
      simp only [alter, found, Option.bind_none]
      split
      · rename_i same
        exact same ▸ found
      · rfl
  | some value =>
      cases changed : change value with
      | none => simp [alter, found, changed, get?_erase]
      | some next => simp [alter, found, changed, get?_set]

theorem total_alter (dict : Dict κ ν) (weight : κ → ν → Int) {key : κ} {old : ν}
    (change : ν → Option ν) (present : dict.get? key = some old) :
    (dict.alter key change).total weight =
      dict.total weight - weight key old + ((change old).map (weight key)).getD 0 := by
  unfold alter
  rw [present]
  cases changed : change old with
  | none =>
      simp only [changed, Option.map_none, Option.getD_none, Int.add_zero]
      exact total_erase dict weight present
  | some next =>
      simp only [changed, Option.map_some, Option.getD_some]
      exact total_set_present dict weight next present

theorem total_nonneg {dict : Dict κ ν} {weight : κ → ν → Int}
    (counted : ∀ key value, dict.get? key = some value → 0 ≤ weight key value) :
    0 ≤ dict.total weight := by
  apply List.sum_nonneg
  intro amount member
  obtain ⟨entry, entryMember, rfl⟩ := List.mem_map.mp member
  exact counted entry.1 entry.2 (get?_eq_some_iff.mpr entryMember)

theorem le_total {dict : Dict κ ν} {weight : κ → ν → Int}
    (counted : ∀ key value, dict.get? key = some value → 0 ≤ weight key value) {key : κ} {value : ν}
    (present : dict.get? key = some value) : weight key value ≤ dict.total weight := by
  have others : 0 ≤ (dict.erase key).total weight := by
    refine total_nonneg fun other value found => ?_
    rw [get?_erase] at found
    split at found
    · cases found
    · exact counted other value found
  rw [total_erase dict weight present] at others
  omega

theorem total_eq_zero {dict : Dict κ ν} {weight : κ → ν → Int}
    (none : ∀ key value, dict.get? key = some value → weight key value = 0) :
    dict.total weight = 0 := by
  apply List.sum_eq_zero
  intro amount member
  obtain ⟨entry, entryMember, rfl⟩ := List.mem_map.mp member
  exact none entry.1 entry.2 (get?_eq_some_iff.mpr entryMember)

/-- Of what every entry gives under the label of its own key, the part under one key's. -/
theorem filter_flatMap {β τ : Type} [DecidableEq τ] {dict : Dict κ ν} {give : κ × ν → List β}
    {tag : β → τ} {label : κ → τ} (apart : label.Injective)
    (tagged : ∀ entry ∈ dict.entries, ∀ item ∈ give entry, tag item = label entry.1) (key : κ) :
    (dict.entries.flatMap give).filter (fun item => tag item = label key) =
      ((dict.get? key).map fun value => give (key, value)).getD [] := by
  have others : ∀ entry ∈ dict.entries, entry.1 ≠ key →
      (give entry).filter (fun item => tag item = label key) = [] :=
    fun entry member different => List.filter_eq_nil_iff.mpr fun item inside => by
      simpa [tagged entry member item inside] using fun same => different (apart same)
  rw [List.filter_flatMap]
  cases found : dict.get? key with
  | none =>
      have absent := get?_eq_none_iff.mp found
      exact List.flatMap_eq_nil_iff.mpr fun entry member => others entry member fun same =>
        absent (same ▸ List.mem_map_of_mem member)
  | some value =>
      have member := get?_eq_some_iff.mp found
      rw [flatMap_of_one dict.unique member fun entry inside => others entry inside]
      exact List.filter_eq_self.mpr fun item inside => by simp [tagged _ member item inside]

/-! ## Rewritten values of a changed dictionary -/

omit [DecidableEq κ] in
theorem eq_of_entries {left right : Dict κ ν} (same : left.entries = right.entries) :
    left = right := by
  cases left
  cases right
  simpa only [mk.injEq] using same

variable {μ : Type} {dict : Dict κ ν} {before after : κ → ν → μ} {key : κ}

theorem mapValues_congr
    (agree : ∀ key value, dict.get? key = some value → after key value = before key value) :
    dict.mapValues after = dict.mapValues before := by
  apply eq_of_entries
  apply List.map_congr_left
  intro entry member
  rw [agree entry.1 entry.2 (get?_eq_some_iff.mpr member)]

theorem mapValues_set (value : ν)
    (others : ∀ other value, dict.get? other = some value → other ≠ key →
      after other value = before other value) :
    (dict.set key value).mapValues after = (dict.mapValues before).set key (after key value) := by
  apply eq_of_entries
  cases found : dict.get? key with
  | none =>
      have fresh : (dict.mapValues before).get? key = none := by
        rw [get?_mapValues, found, Option.map_none]
      rw [entries_set_fresh _ _ fresh, entries_mapValues, entries_mapValues,
        entries_set_fresh _ _ found, List.map_append]
      refine congrArg (· ++ _) (List.map_congr_left fun entry member => ?_)
      have present := get?_eq_some_iff.mpr member
      have different : entry.1 ≠ key := by
        rintro rfl
        rw [found] at present
        cases present
      rw [others entry.1 entry.2 present different]
  | some old =>
      have present : (dict.mapValues before).get? key = some (before key old) := by
        rw [get?_mapValues, found, Option.map_some]
      rw [entries_set_present _ _ present, entries_mapValues, entries_mapValues,
        entries_set_present _ _ found, List.map_map, List.map_map]
      apply List.map_congr_left
      intro entry member
      by_cases same : entry.1 = key
      · simp [same]
      · simp [same, others entry.1 entry.2 (get?_eq_some_iff.mpr member) same]

theorem mapValues_alter {change : ν → Option ν} {changed : μ → Option μ}
    (others : ∀ other value, dict.get? other = some value → other ≠ key →
      after other value = before other value)
    (agree : ∀ value, dict.get? key = some value →
      (change value).map (after key) = changed (before key value)) :
    (dict.alter key change).mapValues after = (dict.mapValues before).alter key changed := by
  apply eq_of_entries
  rw [entries_alter, entries_mapValues, entries_alter, entries_mapValues, List.map_filterMap,
    List.filterMap_map]
  apply List.filterMap_congr
  intro entry member
  have present := get?_eq_some_iff.mpr member
  by_cases same : entry.1 = key
  · subst same
    simp only [Function.comp_apply, if_true, ← agree entry.2 present, Option.map_map]
    rfl
  · simp [same, others entry.1 entry.2 present same]

theorem alter_erase (dict : Dict κ ν) (key : κ) :
    dict.alter key (fun _ => none) = dict.erase key := by
  unfold alter
  cases found : dict.get? key with
  | none => exact (erase_eq_self found).symm
  | some value => rfl

theorem mapValues_erase
    (others : ∀ other value, dict.get? other = some value → other ≠ key →
      after other value = before other value) :
    (dict.erase key).mapValues after = (dict.mapValues before).erase key := by
  rw [← alter_erase, ← alter_erase]
  exact mapValues_alter others fun _ _ => rfl

/-! ## Amounts that are 0 until first set -/

/-- `dict[key] = dict.get(key, 0) + amount`. -/
def add (dict : Dict κ Int) (key : κ) (amount : Int) : Dict κ Int :=
  dict.set key (dict.getD key 0 + amount)

theorem getD_add (dict : Dict κ Int) (key other : κ) (amount : Int) :
    (dict.add key amount).getD other 0 =
      dict.getD other 0 + if other = key then amount else 0 := by
  rw [add, getD_set]
  split
  · rename_i same
    rw [same]
  · rw [Int.add_zero]

theorem get?_add_of_ne (dict : Dict κ Int) {key other : κ} (amount : Int)
    (different : other ≠ key) : (dict.add key amount).get? other = dict.get? other :=
  get?_set_of_ne dict _ different

theorem total_add (dict : Dict κ Int) {weight : κ → Int → Int}
    (additive : ∀ key left right, weight key (left + right) = weight key left + weight key right)
    (key : κ) (amount : Int) :
    (dict.add key amount).total weight = dict.total weight + weight key amount := by
  unfold add getD
  cases found : dict.get? key with
  | none =>
      rw [total_set_fresh dict weight _ found]
      simp only [Option.getD_none, Int.zero_add]
  | some old =>
      rw [total_set_present dict weight _ found, Option.getD_some, additive]
      omega

theorem get?_add (dict : Dict κ Int) (key other : κ) (amount : Int) :
    (dict.add key amount).get? other =
      if other = key then some (dict.getD key 0 + amount) else dict.get? other :=
  get?_set ..

/-- A dictionary that gathers amounts holds, under each key that occurs, their sum. -/
theorem get?_foldl_add {α : Type} (items : List α) (keyOf : α → κ) (amount : α → Int)
    (dict : Dict κ Int) (key : κ) :
    (items.foldl (fun dict item => dict.add (keyOf item) (amount item)) dict).get? key =
      if ∃ item ∈ items, keyOf item = key then
        some (dict.getD key 0 + ((items.filter (keyOf · = key)).map amount).sum)
      else dict.get? key := by
  induction items generalizing dict with
  | nil => simp
  | cons item rest ih =>
      rw [List.foldl_cons, ih, get?_add, getD_add]
      by_cases here : keyOf item = key
      · subst here
        by_cases later : ∃ other ∈ rest, keyOf other = keyOf item
        · simp [later, Int.add_assoc]
        · have none : rest.filter (fun other => keyOf other = keyOf item) = [] := by
            simpa [List.filter_eq_nil_iff] using later
          simp [later, none]
      · have elsewhere : ¬ key = keyOf item := fun same => here same.symm
        simp [here, elsewhere]

end Dict

end QuantArena.Foundations
