import QuantArena.Foundations.Run

/-! What a history of actions says by itself, before any state is computed from it. -/

set_option autoImplicit false

namespace QuantArena.Foundations

variable {α : Type}

/-- Somewhere in the history it was done, and nothing later undid it. -/
def Since (does undoes : α → Prop) (history : List α) : Prop :=
  ∃ before action after, history = before ++ action :: after ∧ does action ∧
    ∀ later ∈ after, ¬ undoes later

/-- Each action is allowed after those before it. -/
def Obeys (allowed : List α → α → Prop) (history : List α) : Prop :=
  Along (fun before action => before ++ [action]) allowed [] history

namespace Since

variable {does undoes : α → Prop} {history : List α} {action : α}

@[simp] theorem nil : ¬ Since does undoes [] := by
  rintro ⟨before, action, after, split, -⟩
  simp at split

theorem cons_iff : Since does undoes (action :: history) ↔
    (does action ∧ ∀ later ∈ history, ¬ undoes later) ∨ Since does undoes history := by
  constructor
  · rintro ⟨before, done, after, split, did, kept⟩
    cases before with
    | nil =>
        obtain ⟨rfl, rfl⟩ := List.cons.inj split
        exact .inl ⟨did, kept⟩
    | cons first rest => exact .inr ⟨rest, done, after, (List.cons.inj split).2, did, kept⟩
  · rintro (⟨did, kept⟩ | ⟨before, done, after, rfl, did, kept⟩)
    · exact ⟨[], action, history, rfl, did, kept⟩
    · exact ⟨action :: before, done, after, rfl, did, kept⟩

/-- The last action does it, or leaves it done. -/
theorem concat_iff : Since does undoes (history ++ [action]) ↔
    does action ∨ Since does undoes history ∧ ¬ undoes action := by
  induction history with
  | nil => simp [cons_iff]
  | cons first rest ih =>
      rw [List.cons_append, cons_iff, ih, cons_iff]
      simp only [List.forall_mem_append, List.forall_mem_singleton]
      tauto

instance decidable [DecidablePred does] [DecidablePred undoes] :
    (history : List α) → Decidable (Since does undoes history)
  | [] => .isFalse nil
  | _ :: rest =>
      have : Decidable (Since does undoes rest) := decidable rest
      decidable_of_iff _ cons_iff.symm

end Since

namespace Obeys

variable {allowed : List α → α → Prop} {history : List α} {action : α}

theorem nil : Obeys allowed [] := trivial

theorem append_left {later : List α} (ordered : Obeys allowed (history ++ later)) :
    Obeys allowed history :=
  (Along.append_iff.mp ordered).1

theorem concat_iff : Obeys allowed (history ++ [action]) ↔
    Obeys allowed history ∧ allowed history action := by
  have walked : history.foldl (fun before action => before ++ [action]) [] = history := by
    rw [List.foldl_append_eq_append, List.nil_append, ← List.flatMap_def,
      List.flatMap_singleton']
  rw [Obeys, Along.append_iff, walked]
  simp [Obeys, Along]

instance decidable [∀ before action, Decidable (allowed before action)] :
    Decidable (Obeys allowed history) :=
  inferInstanceAs (Decidable (Along _ _ _ _))

end Obeys

end QuantArena.Foundations
