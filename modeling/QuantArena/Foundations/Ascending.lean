import Mathlib.Data.List.InsertIdx
import Mathlib.Order.Lattice

/-! Lists that ascend strictly by a key: bisection, and the item of one key put in its place. -/

set_option autoImplicit false

namespace QuantArena.Foundations

/-- The first index from `lo` on, before `hi`, that is not below. -/
def bisect (below : Nat → Bool) (lo hi : Nat) : Nat :=
  if lo < hi then
    if below ((lo + hi) / 2) then bisect below ((lo + hi) / 2 + 1) hi
    else bisect below lo ((lo + hi) / 2)
  else lo
termination_by hi - lo

theorem bisect_eq {below : Nat → Bool} {lo hi count : Nat}
    (threshold : ∀ index, index < hi → (below index = true ↔ index < count))
    (lower : lo ≤ count) (upper : count ≤ hi) : bisect below lo hi = count := by
  fun_induction bisect below lo hi with
  | case1 lo hi more below ih =>
      have early := (threshold _ (by omega)).mp below
      exact ih threshold (by omega) upper
  | case2 lo hi more late ih =>
      have middle : ¬ (lo + hi) / 2 < count := mt (threshold _ (by omega)).mpr late
      exact ih (fun index inside => threshold index (by omega)) lower (by omega)
  | case3 lo hi done => omega

variable {α κ : Type} [LinearOrder κ] {keyOf : α → κ}

def Ascending (keyOf : α → κ) (items : List α) : Prop :=
  items.Pairwise fun early late => keyOf early < keyOf late

/-- The items with this one among them, in the place of whatever had its key. -/
def placed (keyOf : α → κ) (items : List α) (item : α) : List α :=
  items.filter (keyOf · < keyOf item) ++ item :: items.filter (keyOf item < keyOf ·)

namespace Ascending

variable {items : List α} {key : κ}

/-- What is below a key comes first. -/
theorem split (ascending : Ascending keyOf items) (key : κ) :
    items.filter (keyOf · < key) ++ items.filter (key ≤ keyOf ·) = items := by
  induction items with
  | nil => rfl
  | cons first rest ih =>
      obtain ⟨before, later⟩ := List.pairwise_cons.mp ascending
      by_cases below : keyOf first < key
      · simpa [below, not_le.mpr below] using ih later
      · have above := not_lt.mp below
        have all : ∀ item ∈ rest, key ≤ keyOf item := fun item member =>
          le_trans above (before item member).le
        have none : (first :: rest).filter (keyOf · < key) = [] :=
          List.filter_eq_nil_iff.mpr fun item member => by
            cases member with
            | head => simpa using above
            | tail _ inside => simpa using all item inside
        have whole : (first :: rest).filter (key ≤ keyOf ·) = first :: rest :=
          List.filter_eq_self.mpr fun item member => by
            cases member with
            | head => simpa using above
            | tail _ inside => simpa using all item inside
        rw [none, whole, List.nil_append]

/-- What is below a key is what comes before the first item that is not. -/
theorem takeWhile_lt (ascending : Ascending keyOf items) (key : κ) :
    items.takeWhile (keyOf · < key) = items.filter (keyOf · < key) := by
  induction items with
  | nil => rfl
  | cons first rest ih =>
      obtain ⟨before, later⟩ := List.pairwise_cons.mp ascending
      by_cases below : keyOf first < key
      · simpa [below] using ih later
      · have above : ∀ item ∈ rest, ¬ keyOf item < key := fun item member =>
          not_lt.mpr ((not_lt.mp below).trans (before item member).le)
        simpa [below] using above

/-- What is below one of two keys is what is below the first, then what is left below the second. -/
theorem filter_lt_max (ascending : Ascending keyOf items) (first second : κ) :
    items.filter (keyOf · < max first second) = items.filter (keyOf · < first) ++
      (items.filter (keyOf · < second)).filter (first ≤ keyOf ·) := by
  rw [← Ascending.split (ascending.sublist List.filter_sublist) first, List.filter_filter,
    List.filter_filter, List.filter_filter]
  congr 1 <;> refine List.filter_congr fun item _ => ?_
  · by_cases below : keyOf item < first <;> simp [below]
  · by_cases above : first ≤ keyOf item <;> simp [above, not_lt.mpr]

theorem lt_iff_of_getElem? (ascending : Ascending keyOf items) {index : Nat} {item : α}
    (here : items[index]? = some item) :
    keyOf item < key ↔ index < (items.filter (keyOf · < key)).length := by
  rw [← ascending.split key] at here
  by_cases early : index < (items.filter (keyOf · < key)).length
  · rw [List.getElem?_append_left early] at here
    have member := (List.mem_filter.mp (List.mem_of_getElem? here)).2
    exact iff_of_true (by simpa using member) early
  · rw [List.getElem?_append_right (Nat.le_of_not_lt early)] at here
    have member := (List.mem_filter.mp (List.mem_of_getElem? here)).2
    exact iff_of_false (not_lt.mpr (by simpa using member)) early

/-- Bisection finds how many are below. -/
theorem bisect_eq (ascending : Ascending keyOf items) (key : κ) :
    bisect (fun index => (items[index]?).any (keyOf · < key)) 0 items.length =
      (items.filter (keyOf · < key)).length := by
  refine Foundations.bisect_eq (fun index inside => ?_) (Nat.zero_le _) (List.length_filter_le _ _)
  rw [List.getElem?_eq_getElem inside, Option.any_some, decide_eq_true_eq]
  exact ascending.lt_iff_of_getElem? (List.getElem?_eq_getElem inside)

/-- The others, where none has the key. -/
theorem filter_le_of_fresh {item : α} (fresh : ∀ other ∈ items, keyOf other ≠ keyOf item) :
    items.filter (keyOf item ≤ keyOf ·) = items.filter (keyOf item < keyOf ·) :=
  List.filter_congr fun other member => by
    simp [le_iff_lt_or_eq, (fresh other member).symm]

theorem filter_le_of_twin (ascending : Ascending keyOf items) {item twin : α} {rest : List α}
    (same : keyOf twin = keyOf item) (found : items.filter (keyOf item ≤ keyOf ·) = twin :: rest) :
    items.filter (keyOf item < keyOf ·) = rest := by
  have later : Ascending keyOf (twin :: rest) := found ▸ ascending.sublist List.filter_sublist
  have above : ∀ other ∈ rest, keyOf item < keyOf other := fun other member =>
    same ▸ (List.pairwise_cons.mp later).1 other member
  calc items.filter (keyOf item < keyOf ·)
      = (items.filter (keyOf item ≤ keyOf ·)).filter (keyOf item < keyOf ·) := by
        rw [List.filter_filter]
        exact List.filter_congr fun other _ => by
          by_cases after : keyOf item < keyOf other <;> simp [after, le_of_lt]
    _ = rest := by
        rw [found, List.filter_cons_of_neg (by simp [same]),
          List.filter_eq_self.mpr fun other member => by simpa using above other member]

/-- An item that replaces the one with its key. -/
theorem set_eq_placed (ascending : Ascending keyOf items) {item twin : α}
    (found : items[(items.filter (keyOf · < keyOf item)).length]? = some twin)
    (same : keyOf twin = keyOf item) :
    items.set (items.filter (keyOf · < keyOf item)).length item = placed keyOf items item := by
  have parts := ascending.split (keyOf item)
  have rest := fun rest => @filter_le_of_twin _ _ _ _ _ ascending item twin rest same
  rw [placed]
  generalize items.filter (keyOf · < keyOf item) = low at parts found ⊢
  generalize items.filter (keyOf item ≤ keyOf ·) = high at parts rest
  have twinHere : high[0]? = some twin := by
    rw [← parts, List.getElem?_append_right (Nat.le_refl _), Nat.sub_self] at found
    exact found
  cases high with
  | nil => cases twinHere
  | cons first later =>
      cases twinHere
      rw [rest later rfl, ← parts, List.set_append_right _ _ (Nat.le_refl _), Nat.sub_self, List.set_cons_zero]

omit [LinearOrder κ] in
theorem insertIdx_length (low high : List α) (item : α) :
    (low ++ high).insertIdx low.length item = low ++ item :: high := by
  induction low with
  | nil => rfl
  | cons first rest ih => simpa using ih

/-- An item whose key is new. -/
theorem insertIdx_eq_placed (ascending : Ascending keyOf items) {item : α}
    (fresh : ∀ other ∈ items, keyOf other ≠ keyOf item) :
    items.insertIdx (items.filter (keyOf · < keyOf item)).length item = placed keyOf items item := by
  have parts := ascending.split (keyOf item)
  rw [placed, ← filter_le_of_fresh fresh]
  generalize items.filter (keyOf · < keyOf item) = low at parts ⊢
  generalize items.filter (keyOf item ≤ keyOf ·) = high at parts ⊢
  rw [← parts, insertIdx_length]

/-- No twin where bisection stops, and so nowhere. -/
theorem fresh_of_getElem? (ascending : Ascending keyOf items) {item : α}
    (none : ∀ twin, items[(items.filter (keyOf · < keyOf item)).length]? = some twin →
      keyOf twin ≠ keyOf item) : ∀ other ∈ items, keyOf other ≠ keyOf item := by
  intro other member same
  have parts := ascending.split (keyOf item)
  have late : other ∈ items.filter (keyOf item ≤ keyOf ·) :=
    List.mem_filter.mpr ⟨member, by simp [same]⟩
  have later : Ascending keyOf (items.filter (keyOf item ≤ keyOf ·)) :=
    ascending.sublist List.filter_sublist
  have above : ∀ one ∈ items.filter (keyOf item ≤ keyOf ·), keyOf item ≤ keyOf one :=
    fun one inside => by simpa using (List.mem_filter.mp inside).2
  generalize items.filter (keyOf · < keyOf item) = low at parts none
  generalize items.filter (keyOf item ≤ keyOf ·) = high at parts late later above
  cases high with
  | nil => cases late
  | cons first rest =>
      have here : items[low.length]? = some first := by
        rw [← parts, List.getElem?_append_right (Nat.le_refl _), Nat.sub_self, List.getElem?_cons_zero]
      cases late with
      | head => exact none other here same
      | tail _ inside =>
          have after := (List.pairwise_cons.mp later).1 other inside
          exact absurd (above first List.mem_cons_self) (not_le.mpr (same ▸ after))

theorem mem_placed {item other : α} : other ∈ placed keyOf items item ↔
    other = item ∨ other ∈ items ∧ keyOf other ≠ keyOf item := by
  simp only [placed, List.mem_append, List.mem_cons, List.mem_filter, decide_eq_true_eq,
    ne_iff_lt_or_gt]
  tauto

/-- A twin gives its place up; a new key takes one more. -/
theorem length_placed (ascending : Ascending keyOf items) (item : α) :
    (∃ twin ∈ items, keyOf twin = keyOf item) ∧ (placed keyOf items item).length = items.length ∨
      (∀ other ∈ items, keyOf other ≠ keyOf item) ∧
        (placed keyOf items item).length = items.length + 1 := by
  have parts := congrArg List.length (ascending.split (keyOf item))
  rw [List.length_append] at parts
  by_cases fresh : ∀ other ∈ items, keyOf other ≠ keyOf item
  · refine .inr ⟨fresh, ?_⟩
    rw [placed, List.length_append, List.length_cons, ← filter_le_of_fresh fresh]
    omega
  · refine .inl ⟨by simpa using fresh, ?_⟩
    cases found : items[(items.filter (keyOf · < keyOf item)).length]? with
    | none => exact absurd (ascending.fresh_of_getElem? fun twin here => by simp [found] at here) fresh
    | some twin =>
        by_cases same : keyOf twin = keyOf item
        · rw [← ascending.set_eq_placed found same, List.length_set]
        · refine absurd (ascending.fresh_of_getElem? fun other here => ?_) fresh
          cases found.symm.trans here
          exact same

theorem placed_ascending (ascending : Ascending keyOf items) (item : α) :
    Ascending keyOf (placed keyOf items item) := by
  have low : ∀ one ∈ items.filter (keyOf · < keyOf item), keyOf one < keyOf item :=
    fun one member => by simpa using (List.mem_filter.mp member).2
  have high : ∀ one ∈ items.filter (keyOf item < keyOf ·), keyOf item < keyOf one :=
    fun one member => by simpa using (List.mem_filter.mp member).2
  refine List.pairwise_append.mpr ⟨ascending.sublist List.filter_sublist,
    List.pairwise_cons.mpr ⟨high, ascending.sublist List.filter_sublist⟩, ?_⟩
  intro early before late after
  cases after with
  | head => exact low early before
  | tail _ inside => exact (low early before).trans (high late inside)

end Ascending

end QuantArena.Foundations
