import QuantArena.Foundations.Fault

/-! Loops that may raise: what every round keeps, the whole loop keeps, and where no round
raises, the loop returns. -/

set_option autoImplicit false

namespace QuantArena.Foundations

variable {σ α : Type} {step : σ → α → Except Fault σ} {property : σ → Prop} {items : List α}
  {state final : σ}

/-- What a round keeps whenever it returns. -/
theorem foldlM_invariant
    (preserved : ∀ state, ∀ item ∈ items, ∀ next, property state → step state item = .ok next →
      property next)
    (initially : property state) (ran : items.foldlM step state = .ok final) : property final := by
  induction items generalizing state with
  | nil =>
      cases ran
      exact initially
  | cons item rest ih =>
      rw [List.foldlM_cons] at ran
      obtain ⟨next, first, later⟩ := Fault.bind_eq_ok.mp ran
      exact ih (fun state other member => preserved state other (List.mem_cons_of_mem _ member))
        (preserved state item List.mem_cons_self next initially first) later

/-! ## Comprehensions that may raise -/

theorem mapM_eq_map {α β : Type} {f : α → Except Fault β} {g : α → β} {items : List α}
    (same : ∀ item ∈ items, f item = .ok (g item)) : items.mapM f = .ok (items.map g) := by
  induction items with
  | nil => rfl
  | cons item rest ih =>
      rw [List.mapM_cons, same item List.mem_cons_self, Fault.ok_bind,
        ih fun other member => same other (List.mem_cons_of_mem _ member)]
      rfl

theorem mapM_some_iff {α β : Type} {f : α → Option β} {items : List α} {results : List β} :
    items.mapM f = some results ↔ items.map f = results.map some := by
  induction items generalizing results with
  | nil => cases results <;> simp
  | cons item rest ih =>
      rw [List.mapM_cons]
      cases found : f item with
      | none => cases results <;> simp [found]
      | some value =>
          cases others : rest.mapM f with
          | none =>
              have apart : ∀ values : List β, rest.map f ≠ values.map some := by
                intro values same
                have returned := ih.mpr same
                rw [others] at returned
                cases returned
              cases results with
              | nil => simp
              | cons result results => simp [found, apart results]
          | some values =>
              cases results with
              | nil => simp
              | cons result results =>
                  have same := @ih results
                  rw [others] at same
                  simp [found, ← same]

end QuantArena.Foundations
