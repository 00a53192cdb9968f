import Mathlib.Data.List.Nodup
import Mathlib.Order.Lattice
import QuantArena.Foundations.Dict

/-! Dictionaries that hold the same under every key, and lists put in one order: what
is left of a dictionary when its iteration order does not matter. -/

set_option autoImplicit false

namespace QuantArena.Foundations

/-! ## One order for every listing -/

section Canonical

variable {α ι : Type} [LinearOrder ι]

/-- `sorted`, for items that a rank tells apart. -/
def canonical (rank : α → ι) (items : List α) : List α :=
  items.mergeSort fun left right => rank left ≤ rank right

variable {rank : α → ι}

theorem canonical_perm (rank : α → ι) (items : List α) : (canonical rank items).Perm items :=
  items.mergeSort_perm _

theorem canonical_ordered (rank : α → ι) (items : List α) :
    (canonical rank items).Pairwise fun left right => rank left ≤ rank right := by
  have ordered := @List.pairwise_mergeSort _ (fun left right => decide (rank left ≤ rank right))
    (fun _ _ _ first second => by
      simp only [decide_eq_true_eq] at first second ⊢
      exact le_trans first second)
    (fun left right => by simpa using le_total (rank left) (rank right)) items
  exact ordered.imp fun related => by simpa using related

/-- The order depends on what is listed, and not on how. -/
theorem canonical_eq {items others : List α} (same : items.Perm others)
    (apart : ∀ left ∈ items, ∀ right ∈ items, rank left = rank right → left = right) :
    canonical rank items = canonical rank others := by
  have listed : (canonical rank items).Perm (canonical rank others) :=
    (canonical_perm rank items).trans (same.trans (canonical_perm rank others).symm)
  refine listed.eq_of_pairwise ?_ (canonical_ordered rank items) (canonical_ordered rank others)
  intro left right leftMember rightMember below above
  refine apart left ((canonical_perm rank items).mem_iff.mp leftMember) right ?_
    (le_antisymm below above)
  exact same.mem_iff.mpr ((canonical_perm rank others).mem_iff.mp rightMember)

end Canonical

/-- Items that each rewrite what stands at a place of their own, once. -/
theorem foldl_rewrites {σ α κ ο : Type} [DecidableEq κ] {step : σ → α → σ} {place : α → κ}
    {stands : σ → κ → ο} {rewrite : α → ο → ο}
    (rewrites : ∀ state item other, stands (step state item) other =
      if other = place item then rewrite item (stands state other) else stands state other)
    {items : List α} (distinct : (items.map place).Nodup) (state : σ) :
    (∀ item ∈ items, stands (items.foldl step state) (place item) =
      rewrite item (stands state (place item))) ∧
    ∀ other, other ∉ items.map place →
      stands (items.foldl step state) other = stands state other := by
  induction items generalizing state with
  | nil => simp
  | cons item rest ih =>
      obtain ⟨apart, restDistinct⟩ := List.nodup_cons.mp distinct
      obtain ⟨written, kept⟩ := ih restDistinct (step state item)
      constructor
      · intro other member
        rw [List.foldl_cons]
        cases List.mem_cons.mp member with
        | inl same => rw [same, kept _ apart, rewrites, if_pos rfl]
        | inr later =>
            have different : place other ≠ place item := fun same =>
              apart (same ▸ List.mem_map_of_mem later)
            rw [written other later, rewrites, if_neg different]
      · intro other absent
        rw [List.map_cons, List.mem_cons, not_or] at absent
        rw [List.foldl_cons, kept other absent.2, rewrites, if_neg absent.1]

namespace Dict

variable {κ ν : Type} [DecidableEq κ]

/-- The same value, or none, under every key. -/
def Same (left right : Dict κ ν) : Prop := ∀ key, left.get? key = right.get? key

namespace Same

variable {left right : Dict κ ν}

theorem refl (dict : Dict κ ν) : dict.Same dict := fun _ => rfl

theorem getD (same : left.Same right) (key : κ) (default : ν) :
    left.getD key default = right.getD key default := by
  rw [Dict.getD, Dict.getD, same key]

theorem set (same : left.Same right) (key : κ) (value : ν) :
    (left.set key value).Same (right.set key value) := by
  intro other
  rw [get?_set, get?_set, same other]

theorem erase (same : left.Same right) (key : κ) : (left.erase key).Same (right.erase key) := by
  intro other
  rw [get?_erase, get?_erase, same other]

theorem alter (same : left.Same right) (key : κ) (change : ν → Option ν) :
    (left.alter key change).Same (right.alter key change) := by
  intro other
  rw [get?_alter, get?_alter, same key, same other]

theorem add {left right : Dict κ Int} (same : left.Same right) (key : κ) (amount : Int) :
    (left.add key amount).Same (right.add key amount) := by
  rw [Dict.add, Dict.add, same.getD]
  exact same.set key _

theorem entries_perm (same : left.Same right) : left.entries.Perm right.entries := by
  refine (List.perm_ext_iff_of_nodup (List.Nodup.of_map _ left.unique)
    (List.Nodup.of_map _ right.unique)).mpr fun entry => ?_
  rw [← get?_eq_some_iff, ← get?_eq_some_iff, same entry.1]

theorem values_perm (same : left.Same right) : left.values.Perm right.values :=
  same.entries_perm.map Prod.snd

theorem total (same : left.Same right) (weight : κ → ν → Int) :
    left.total weight = right.total weight :=
  (same.entries_perm.map _).sum_eq

end Same

/-- A dictionary comprehension: of two entries with one key, the later one stays. -/
def ofEntries (entries : List (κ × ν)) : Dict κ ν :=
  entries.foldl (fun dict entry => dict.set entry.1 entry.2) empty

/-- What a run of bindings leaves under a key: the value they agree on, or what stood there. -/
theorem get?_foldl_set {entries : List (κ × ν)} {key : κ} {value : ν}
    (agree : ∀ entry ∈ entries, entry.1 = key → entry.2 = value) (dict : Dict κ ν) :
    (entries.foldl (fun dict entry => dict.set entry.1 entry.2) dict).get? key =
      if key ∈ entries.map Prod.fst then some value else dict.get? key := by
  induction entries generalizing dict with
  | nil => rfl
  | cons head rest ih =>
      rw [List.foldl_cons, ih (fun entry member => agree entry (List.mem_cons_of_mem _ member)),
        get?_set]
      by_cases later : key ∈ rest.map Prod.fst
      · simp [later]
      · by_cases here : key = head.1
        · simp [here, agree head List.mem_cons_self here.symm]
        · simp [later, here]

/-- Whatever a run of bindings leaves was bound in it, or stood there. -/
theorem mem_of_get?_foldl_set {entries : List (κ × ν)} {key : κ} {value : ν} {dict : Dict κ ν}
    (found : (entries.foldl (fun dict entry => dict.set entry.1 entry.2) dict).get? key =
      some value) : (key, value) ∈ entries ∨ dict.get? key = some value := by
  induction entries generalizing dict with
  | nil => exact .inr found
  | cons head rest ih =>
      cases ih found with
      | inl later => exact .inl (List.mem_cons_of_mem _ later)
      | inr before =>
          rw [get?_set] at before
          split at before
          · rename_i here
            cases before
            exact .inl (here ▸ List.mem_cons_self)
          · exact .inr before

theorem get?_ofEntries {entries : List (κ × ν)} (unique : (entries.map Prod.fst).Nodup) {key : κ}
    {value : ν} : (ofEntries entries).get? key = some value ↔ (key, value) ∈ entries := by
  by_cases bound : key ∈ entries.map Prod.fst
  · obtain ⟨entry, member, rfl⟩ := List.mem_map.mp bound
    have agree : ∀ other ∈ entries, other.1 = entry.1 → other.2 = entry.2 :=
      fun other inside same =>
        congrArg Prod.snd (List.inj_on_of_nodup_map unique inside member same)
    rw [ofEntries, get?_foldl_set agree, if_pos bound]
    constructor
    · intro same
      cases same
      exact member
    · intro inside
      exact congrArg some (agree _ inside rfl).symm
  · have agree : ∀ other ∈ entries, other.1 = key → other.2 = value := fun other inside same =>
      absurd (same ▸ List.mem_map_of_mem inside) bound
    rw [ofEntries, get?_foldl_set agree, if_neg bound]
    exact ⟨fun found => absurd found (by simp [Dict.get?, Dict.empty]),
      fun member => absurd (List.mem_map_of_mem member) bound⟩

/-- A loop that binds at most one key for each item. -/
theorem foldl_entries {α : Type} {step : Dict κ ν → α → Dict κ ν} {entry : α → Option (κ × ν)}
    (steps : ∀ dict item,
      step dict item = (entry item).elim dict fun entry => dict.set entry.1 entry.2)
    (items : List α) : items.foldl step empty = ofEntries (items.filterMap entry) := by
  rw [ofEntries, List.foldl_filterMap]
  congr 1
  funext dict item
  rw [steps]
  cases entry item <;> rfl

/-- A dictionary rebuilt from its entries in any order. -/
theorem ofEntries_same {entries : List (κ × ν)} {dict : Dict κ ν}
    (listed : entries.Perm dict.entries) : (ofEntries entries).Same dict := by
  have unique : (entries.map Prod.fst).Nodup := (listed.map Prod.fst).nodup_iff.mpr dict.unique
  intro key
  apply Option.ext
  intro value
  rw [get?_ofEntries unique, get?_eq_some_iff, listed.mem_iff]

omit [DecidableEq κ] in
/-- Entries are told apart by their keys. -/
theorem entries_apart (dict : Dict κ ν) :
    ∀ left ∈ dict.entries, ∀ right ∈ dict.entries, left.1 = right.1 → left = right :=
  fun _ leftMember _ rightMember same =>
    List.inj_on_of_nodup_map dict.unique leftMember rightMember same

/-! ## Amounts gathered by a loop -/

theorem getD_foldl {α : Type} {step : Dict κ Int → α → Dict κ Int} {weight : α → Int} {key : κ}
    (adds : ∀ dict item, (step dict item).getD key 0 = dict.getD key 0 + weight item)
    (items : List α) (dict : Dict κ Int) :
    (items.foldl step dict).getD key 0 = dict.getD key 0 + (items.map weight).sum := by
  induction items generalizing dict with
  | nil => simp
  | cons item rest ih =>
      rw [List.foldl_cons, ih, adds, List.map_cons, List.sum_cons]
      omega

/-- Entries that hold nothing can be left out of a listing. -/
theorem getD_ofEntries_nonzero {entries : List (κ × Int)} {dict : Dict κ Int}
    (listed : entries.Perm (dict.entries.filter (·.2 ≠ 0))) (key : κ) :
    (ofEntries entries).getD key 0 = dict.getD key 0 := by
  have unique : (entries.map Prod.fst).Nodup := by
    refine (listed.map Prod.fst).nodup_iff.mpr ?_
    exact dict.unique.sublist (List.filter_sublist.map Prod.fst)
  have shown : ∀ value, (ofEntries entries).get? key = some value ↔
      dict.get? key = some value ∧ value ≠ 0 := by
    intro value
    rw [get?_ofEntries unique, listed.mem_iff, List.mem_filter, get?_eq_some_iff]
    simp
  rw [getD, getD]
  cases found : dict.get? key with
  | none =>
      have absent : (ofEntries entries).get? key = none := by
        refine Option.eq_none_iff_forall_ne_some.mpr fun value present => ?_
        rw [((shown value).mp present).1] at found
        cases found
      rw [absent]
  | some value =>
      by_cases zero : value = 0
      · have absent : (ofEntries entries).get? key = none := by
          refine Option.eq_none_iff_forall_ne_some.mpr fun other present => ?_
          obtain ⟨same, nonzero⟩ := (shown other).mp present
          rw [found] at same
          exact nonzero ((Option.some.inj same).symm.trans zero)
        rw [absent, zero]
        rfl
      · rw [(shown value).mpr ⟨found, zero⟩]

end Dict

end QuantArena.Foundations
