import QuantArena.Foundations.Canonical
import QuantArena.Foundations.PriceTime

/-! A dictionary that mirrors a book: the same orders in the same order, each seen
through what the dictionary keeps of it. -/

set_option autoImplicit false

namespace QuantArena.Foundations

open PriceTime

variable {ι π κ ν β : Type} [DecidableEq ι]

def Mirrors (dict : Dict ι ν) (view : ν → β) (book : List (Resting ι π κ))
    (sight : Resting ι π κ → β) : Prop :=
  dict.entries.map (fun entry => (entry.1, view entry.2)) =
    book.map fun order => (order.id, sight order)

namespace Mirrors

variable {dict : Dict ι ν} {view : ν → β} {book : List (Resting ι π κ)}
  {sight : Resting ι π κ → β}

omit [DecidableEq ι] in
theorem empty : Mirrors (Dict.empty : Dict ι ν) view ([] : List (Resting ι π κ)) sight := rfl

theorem of_get? (mirrors : Mirrors dict view book sight) {id : ι} {value : ν}
    (found : dict.get? id = some value) :
    ∃ order ∈ book, order.id = id ∧ sight order = view value := by
  have listed : (id, view value) ∈ dict.entries.map fun entry => (entry.1, view entry.2) :=
    List.mem_map.mpr ⟨(id, value), Dict.get?_eq_some_iff.mp found, rfl⟩
  rw [mirrors] at listed
  obtain ⟨order, member, same⟩ := List.mem_map.mp listed
  obtain ⟨sameId, sameView⟩ := Prod.mk.inj same
  exact ⟨order, member, sameId, sameView⟩

theorem of_mem (mirrors : Mirrors dict view book sight) {order : Resting ι π κ}
    (member : order ∈ book) : ∃ value, dict.get? order.id = some value ∧ view value = sight order := by
  have listed : (order.id, sight order) ∈ book.map fun order => (order.id, sight order) :=
    List.mem_map_of_mem member
  rw [← mirrors] at listed
  obtain ⟨entry, entryMember, same⟩ := List.mem_map.mp listed
  obtain ⟨sameId, sameView⟩ := Prod.mk.inj same
  refine ⟨entry.2, ?_, sameView⟩
  rw [Dict.get?_eq_some_iff, ← sameId]
  exact entryMember

theorem get?_eq_none (mirrors : Mirrors dict view book sight) {id : ι} :
    dict.get? id = none ↔ ∀ order ∈ book, order.id ≠ id := by
  constructor
  · intro absent order member same
    obtain ⟨value, found, -⟩ := mirrors.of_mem member
    rw [same, absent] at found
    cases found
  · intro absent
    cases found : dict.get? id with
    | none => rfl
    | some value =>
        obtain ⟨order, member, same, -⟩ := mirrors.of_get? found
        exact absurd same (absent order member)

/-- A lookup finds what is kept of the order with that id. -/
theorem get?_map (mirrors : Mirrors dict view book sight) (id : ι) :
    (dict.get? id).map view = (book.find? fun order => order.id = id).map sight := by
  have found := congrArg (fun entries => (entries.find? fun entry => entry.1 = id).map Prod.snd) mirrors
  simpa only [List.find?_map, Option.map_map, Function.comp_def, Dict.get?] using found

omit [DecidableEq ι] in
theorem values_map (mirrors : Mirrors dict view book sight) :
    dict.values.map view = book.map sight := by
  have seconds := congrArg (List.map Prod.snd) mirrors
  simpa only [List.map_map, Dict.values, Function.comp_def] using seconds

/-- A newly listed order is bound last. -/
theorem set_newest (mirrors : Mirrors dict view book sight) {order : Resting ι π κ} {value : ν}
    (fresh : ∀ other ∈ book, other.id ≠ order.id) (same : view value = sight order) :
    Mirrors (dict.set order.id value) view (book ++ [order]) sight := by
  unfold Mirrors
  rw [Dict.entries_set_fresh _ _ (mirrors.get?_eq_none.mpr fresh), List.map_append,
    List.map_append, mirrors, List.map_singleton, List.map_singleton, same]

omit [DecidableEq ι] in
/-- Less may be shown of the same values. -/
theorem through {γ : Type} (mirrors : Mirrors dict view book sight) (outer : β → γ) :
    Mirrors dict (fun value => outer (view value)) book fun order => outer (sight order) := by
  have shown := congrArg (List.map fun entry => (entry.1, outer entry.2)) mirrors
  rw [List.map_map, List.map_map] at shown
  exact shown

private theorem map_filterMap_eq {α γ δ : Type} {xs : List α} {ys : List γ} {f f' : α → δ}
    {g : γ → δ} {p : α → Option α} {q : γ → Option γ} (same : xs.map f = ys.map g)
    (step : ∀ x ∈ xs, ∀ y ∈ ys, f x = g y → (p x).map f' = (q y).map g) :
    (xs.filterMap p).map f' = (ys.filterMap q).map g := by
  rw [List.map_filterMap, List.map_filterMap]
  induction xs generalizing ys with
  | nil =>
      cases ys with
      | nil => rfl
      | cons y rest => cases same
  | cons x rest ih =>
      cases ys with
      | nil => cases same
      | cons y others =>
          obtain ⟨head, tail⟩ := List.cons.inj same
          have first := step x List.mem_cons_self y List.mem_cons_self head
          have later := ih tail fun a aMember b bMember =>
            step a (List.mem_cons_of_mem x aMember) b (List.mem_cons_of_mem y bMember)
          simp only [List.filterMap_cons, first, later]

/-- What is left of an order, seen as before. -/
def shownLeft (sight : Resting ι π κ → β) (qty : Int) (order : Resting ι π κ) : Option β :=
  if order.remaining ≤ qty then none
  else some (sight { order with remaining := order.remaining - qty })

/-- Reducing an order alters one entry, also where the way to look at it changes with it. -/
theorem alter (mirrors : Mirrors dict view book sight) {id : ι} {qty : Int}
    {change : ν → Option ν} {other : ν → β}
    (others : ∀ key value, dict.get? key = some value → key ≠ id → other value = view value)
    (agree : ∀ value order, dict.get? id = some value → order ∈ book → order.id = id →
      view value = sight order → (change value).map other = shownLeft sight qty order) :
    Mirrors (dict.alter id change) other (reduce id qty book) sight := by
  unfold Mirrors
  rw [Dict.entries_alter, reduce]
  refine map_filterMap_eq mirrors ?_
  intro entry entryMember order orderMember same
  obtain ⟨sameId, sameView⟩ := Prod.mk.inj same
  have found := Dict.get?_eq_some_iff.mpr entryMember
  by_cases here : entry.1 = id
  · have orderId : order.id = id := sameId.symm.trans here
    have left := agree entry.2 order (here ▸ found) orderMember orderId sameView
    simp only [if_pos here, Option.map_map, Function.comp_def, reduceOne, if_pos orderId]
    unfold shownLeft at left
    split at left
    · rename_i exhausted
      rw [if_pos exhausted]
      rw [Option.map_eq_none_iff] at left
      rw [left]
      rfl
    · rename_i remains
      rw [if_neg remains, Option.map_some, ← orderId]
      obtain ⟨next, changed, shown⟩ := Option.map_eq_some_iff.mp left
      rw [changed, Option.map_some, shown]
  · have orderId : order.id ≠ id := fun same => here (sameId.trans same)
    simp only [if_neg here, reduceOne, if_neg orderId, Option.map_some, Option.some.injEq]
    rw [others entry.1 entry.2 found here, sameId, sameView]

theorem erase (mirrors : Mirrors dict view book sight) (id : ι) :
    Mirrors (dict.erase id) view (remove id book) sight := by
  unfold Mirrors
  simp only [Dict.erase, remove]
  rw [← List.filterMap_eq_filter, ← List.filterMap_eq_filter]
  refine map_filterMap_eq mirrors ?_
  intro entry _ order _ same
  obtain ⟨sameId, sameView⟩ := Prod.mk.inj same
  by_cases here : order.id = id
  · simp [Option.guard, sameId, here]
  · simp [Option.guard, sameId, sameView, here]

end Mirrors

/-! ## In any order -/

/-- The dictionary mirrors the book, but for the order of its entries. -/
def Lists (dict : Dict ι ν) (view : ν → β) (book : List (Resting ι π κ))
    (sight : Resting ι π κ → β) : Prop :=
  ∃ ordered, dict.Same ordered ∧ Mirrors ordered view book sight

theorem Mirrors.lists {dict : Dict ι ν} {view : ν → β} {book : List (Resting ι π κ)}
    {sight : Resting ι π κ → β} (mirrors : Mirrors dict view book sight) :
    Lists dict view book sight := ⟨dict, .refl dict, mirrors⟩

namespace Lists

variable {dict other : Dict ι ν} {view : ν → β} {book : List (Resting ι π κ)}
  {sight : Resting ι π κ → β}

theorem of_same (lists : Lists dict view book sight) (same : other.Same dict) :
    Lists other view book sight := by
  obtain ⟨ordered, known, mirrors⟩ := lists
  exact ⟨ordered, fun id => (same id).trans (known id), mirrors⟩

theorem of_get? (lists : Lists dict view book sight) {id : ι} {value : ν}
    (found : dict.get? id = some value) :
    ∃ order ∈ book, order.id = id ∧ sight order = view value := by
  obtain ⟨ordered, same, mirrors⟩ := lists
  exact mirrors.of_get? ((same id).symm.trans found)

theorem of_mem (lists : Lists dict view book sight) {order : Resting ι π κ}
    (member : order ∈ book) : ∃ value, dict.get? order.id = some value ∧ view value = sight order := by
  obtain ⟨ordered, same, mirrors⟩ := lists
  obtain ⟨value, found, shown⟩ := mirrors.of_mem member
  exact ⟨value, (same _).trans found, shown⟩

theorem get?_eq_none (lists : Lists dict view book sight) {id : ι} :
    dict.get? id = none ↔ ∀ order ∈ book, order.id ≠ id := by
  obtain ⟨ordered, same, mirrors⟩ := lists
  rw [same id, mirrors.get?_eq_none]

theorem get?_map (lists : Lists dict view book sight) (id : ι) :
    (dict.get? id).map view = (book.find? fun order => order.id = id).map sight := by
  obtain ⟨ordered, same, mirrors⟩ := lists
  rw [same id, mirrors.get?_map]

theorem set_newest (lists : Lists dict view book sight) {order : Resting ι π κ} {value : ν}
    (fresh : ∀ other ∈ book, other.id ≠ order.id) (shown : view value = sight order) :
    Lists (dict.set order.id value) view (book ++ [order]) sight := by
  obtain ⟨ordered, same, mirrors⟩ := lists
  exact ⟨_, same.set _ _, mirrors.set_newest fresh shown⟩

theorem through {γ : Type} (lists : Lists dict view book sight) (outer : β → γ) :
    Lists dict (fun value => outer (view value)) book fun order => outer (sight order) := by
  obtain ⟨ordered, same, mirrors⟩ := lists
  exact ⟨ordered, same, mirrors.through outer⟩

theorem alter (lists : Lists dict view book sight) {id : ι} {qty : Int} {change : ν → Option ν}
    (agree : ∀ value order, dict.get? id = some value → order ∈ book → order.id = id →
      view value = sight order → (change value).map view = Mirrors.shownLeft sight qty order) :
    Lists (dict.alter id change) view (reduce id qty book) sight := by
  obtain ⟨ordered, same, mirrors⟩ := lists
  refine ⟨_, same.alter _ _, mirrors.alter (fun _ _ _ _ => rfl) fun value order found => ?_⟩
  exact agree value order ((same id).trans found)

theorem erase (lists : Lists dict view book sight) (id : ι) :
    Lists (dict.erase id) view (remove id book) sight := by
  obtain ⟨ordered, same, mirrors⟩ := lists
  exact ⟨_, same.erase _, mirrors.erase id⟩

end Lists

end QuantArena.Foundations
