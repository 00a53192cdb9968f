import Mathlib.Data.List.Sort
import Mathlib.Order.Basic
import Mathlib.Order.Lattice

/-! Finite maps iterated in ascending key order: `std::map`. The entries carry
their order, so that the first of them is always the least. -/

set_option autoImplicit false

namespace QuantArena.Foundations

structure OrderedMap (κ ν : Type) [LinearOrder κ] where
  entries : List (κ × ν)
  ascending : entries.Pairwise fun left right => left.1 < right.1

namespace OrderedMap

variable {κ ν : Type} [LinearOrder κ]

def empty : OrderedMap κ ν := ⟨[], List.Pairwise.nil⟩

def size (map : OrderedMap κ ν) : Nat := map.entries.length

def find? (map : OrderedMap κ ν) (key : κ) : Option ν :=
  (map.entries.find? fun entry => entry.1 = key).map Prod.snd

/-- `begin()`, unless the map is empty. -/
def first? (map : OrderedMap κ ν) : Option (κ × ν) := map.entries.head?

def insertEntry (key : κ) (value : ν) : List (κ × ν) → List (κ × ν)
  | [] => [(key, value)]
  | entry :: rest =>
      if key < entry.1 then (key, value) :: entry :: rest
      else if key = entry.1 then (key, value) :: rest
      else entry :: insertEntry key value rest

theorem mem_insertEntry {key : κ} {value : ν} {entries : List (κ × ν)} {entry : κ × ν}
    (member : entry ∈ insertEntry key value entries) :
    entry = (key, value) ∨ entry ∈ entries := by
  induction entries with
  | nil => exact .inl (List.mem_singleton.mp member)
  | cons head rest ih =>
      unfold insertEntry at member
      split at member
      · exact (List.mem_cons.mp member).imp_right id
      · split at member
        · exact (List.mem_cons.mp member).imp_right (List.mem_cons_of_mem _)
        · cases List.mem_cons.mp member with
          | inl same => exact .inr (same ▸ List.mem_cons_self)
          | inr later => exact (ih later).imp_right (List.mem_cons_of_mem _)

theorem insertEntry_ascending {entries : List (κ × ν)} (key : κ) (value : ν)
    (ascending : entries.Pairwise fun left right => left.1 < right.1) :
    (insertEntry key value entries).Pairwise fun left right => left.1 < right.1 := by
  induction entries with
  | nil => exact List.pairwise_singleton _ _
  | cons head rest ih =>
      obtain ⟨least, ordered⟩ := List.pairwise_cons.mp ascending
      unfold insertEntry
      split
      · rename_i before
        refine List.pairwise_cons.mpr ⟨fun entry member => ?_, ascending⟩
        cases List.mem_cons.mp member with
        | inl same => exact same ▸ before
        | inr later => exact lt_trans before (least entry later)
      · rename_i notBefore
        split
        · rename_i same
          exact List.pairwise_cons.mpr ⟨fun entry member => same ▸ least entry member, ordered⟩
        · rename_i different
          refine List.pairwise_cons.mpr ⟨fun entry member => ?_, ih ordered⟩
          cases mem_insertEntry member with
          | inl same =>
              rw [same]
              exact lt_of_le_of_ne (not_lt.mp notBefore) (Ne.symm different)
          | inr old => exact least entry old

/-- `map[key] = value`. -/
def insert (map : OrderedMap κ ν) (key : κ) (value : ν) : OrderedMap κ ν :=
  ⟨insertEntry key value map.entries, insertEntry_ascending key value map.ascending⟩

def erase (map : OrderedMap κ ν) (key : κ) : OrderedMap κ ν :=
  ⟨map.entries.filter fun entry => entry.1 ≠ key, map.ascending.filter _⟩

/-- `emplace`: an entry that is already there stays. -/
def emplace (map : OrderedMap κ ν) (key : κ) (value : ν) : OrderedMap κ ν :=
  if (map.find? key).isSome then map else map.insert key value

/-! ## Lookup -/

variable {map : OrderedMap κ ν} {key other : κ} {value : ν}

theorem find?_eq_some_iff : map.find? key = some value ↔ (key, value) ∈ map.entries := by
  unfold find?
  rw [Option.map_eq_some_iff]
  constructor
  · intro found
    obtain ⟨⟨foundKey, foundValue⟩, present, same⟩ := found
    have sameKey : foundKey = key := by simpa using List.find?_some present
    rw [← same, ← sameKey]
    exact List.mem_of_find?_eq_some present
  · intro member
    cases present : map.entries.find? fun entry => entry.1 = key with
    | none => simpa using List.find?_eq_none.mp present (key, value) member
    | some entry =>
        have sameKey : entry.1 = key := by simpa using List.find?_some present
        have unique : (map.entries.map Prod.fst).Nodup :=
          List.pairwise_map.mpr (map.ascending.imp ne_of_lt)
        have same := List.inj_on_of_nodup_map unique (List.mem_of_find?_eq_some present) member
          sameKey
        exact ⟨entry, rfl, by rw [same]⟩

theorem find?_eq_none_iff : map.find? key = none ↔ ∀ value, (key, value) ∉ map.entries := by
  cases found : map.find? key with
  | none =>
      simp only [true_iff]
      intro value member
      rw [find?_eq_some_iff.mpr member] at found
      cases found
  | some value =>
      simp only [reduceCtorEq, false_iff, not_forall, not_not]
      exact ⟨value, find?_eq_some_iff.mp found⟩

@[simp] theorem find?_empty (key : κ) : (empty : OrderedMap κ ν).find? key = none := rfl

theorem mem_insertEntry_iff {entries : List (κ × ν)} {entry : κ × ν}
    (ascending : entries.Pairwise fun left right => left.1 < right.1) :
    entry ∈ insertEntry key value entries ↔
      entry = (key, value) ∨ entry ∈ entries ∧ entry.1 ≠ key := by
  induction entries with
  | nil => simp [insertEntry]
  | cons head rest ih =>
      obtain ⟨least, ordered⟩ := List.pairwise_cons.mp ascending
      unfold insertEntry
      split
      · rename_i before
        have above : ∀ entry ∈ head :: rest, entry.1 ≠ key := by
          intro entry member
          cases List.mem_cons.mp member with
          | inl same => exact same ▸ before.ne'
          | inr later => exact (lt_trans before (least entry later)).ne'
        rw [List.mem_cons]
        exact or_congr_right ⟨fun member => ⟨member, above entry member⟩, And.left⟩
      · rename_i notBefore
        split
        · rename_i same
          have above : ∀ entry ∈ rest, entry.1 ≠ key := fun entry member =>
            same ▸ (least entry member).ne'
          rw [List.mem_cons, List.mem_cons]
          refine or_congr_right ⟨fun member => ⟨.inr member, above entry member⟩, ?_⟩
          intro both
          obtain ⟨here | later, different⟩ := both
          · exact absurd (here ▸ same.symm) different
          · exact later
        · rename_i different
          rw [List.mem_cons, ih ordered, List.mem_cons]
          constructor
          · intro found
            cases found with
            | inl here => exact .inr ⟨.inl here, here ▸ Ne.symm different⟩
            | inr later => exact later.imp_right fun both => ⟨.inr both.1, both.2⟩
          · intro found
            cases found with
            | inl new => exact .inr (.inl new)
            | inr old =>
                obtain ⟨here | later, notKey⟩ := old
                · exact .inl here
                · exact .inr (.inr ⟨later, notKey⟩)

theorem find?_insert (map : OrderedMap κ ν) (key other : κ) (value : ν) :
    (map.insert key value).find? other = if other = key then some value else map.find? other := by
  have entries : ∀ entry, entry ∈ (map.insert key value).entries ↔
      entry = (key, value) ∨ entry ∈ map.entries ∧ entry.1 ≠ key :=
    fun entry => mem_insertEntry_iff map.ascending
  split
  · rename_i same
    rw [same, find?_eq_some_iff, entries]
    exact .inl rfl
  · rename_i different
    apply Option.ext
    intro found
    rw [find?_eq_some_iff, find?_eq_some_iff, entries]
    simp [different]

theorem find?_erase (map : OrderedMap κ ν) (key other : κ) :
    (map.erase key).find? other = if other = key then none else map.find? other := by
  split
  · rename_i same
    rw [same, find?_eq_none_iff]
    simp [erase]
  · rename_i different
    apply Option.ext
    intro found
    rw [find?_eq_some_iff, find?_eq_some_iff]
    simp [erase, different]

theorem emplace_of_absent (absent : map.find? key = none) :
    map.emplace key value = map.insert key value := by
  rw [emplace, absent]
  rfl

/-! ## Iteration -/

/-- The first entry has the least key. -/
theorem first?_eq_some {entry : κ × ν} (first : map.first? = some entry) :
    map.find? entry.1 = some entry.2 ∧
      ∀ other, (map.find? other).isSome → entry.1 ≤ other := by
  obtain ⟨rest, shape⟩ := List.head?_eq_some_iff.mp first
  have ordered := map.ascending
  rw [shape] at ordered
  refine ⟨find?_eq_some_iff.mpr (by rw [shape]; exact List.mem_cons_self), ?_⟩
  intro other present
  obtain ⟨value, found⟩ := Option.isSome_iff_exists.mp present
  rw [find?_eq_some_iff, shape] at found
  cases List.mem_cons.mp found with
  | inl same => exact (congrArg Prod.fst same).ge
  | inr later => exact ((List.pairwise_cons.mp ordered).1 _ later).le

theorem first?_eq_none (first : map.first? = none) (key : κ) : map.find? key = none := by
  rw [find?_eq_none_iff, List.head?_eq_none_iff.mp first]
  exact fun _ => List.not_mem_nil

/-- A key above all others is inserted at the end. -/
theorem entries_insert_last (above : ∀ entry ∈ map.entries, entry.1 < key) :
    (map.insert key value).entries = map.entries ++ [(key, value)] := by
  show insertEntry key value map.entries = _
  generalize map.entries = entries at above
  induction entries with
  | nil => rfl
  | cons head rest ih =>
      have below := above head List.mem_cons_self
      rw [insertEntry, if_neg below.asymm, if_neg below.ne',
        ih fun entry member => above entry (List.mem_cons_of_mem _ member)]
      rfl

end OrderedMap

end QuantArena.Foundations
