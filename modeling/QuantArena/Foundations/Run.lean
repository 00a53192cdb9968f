import Mathlib.Data.List.Basic

/-! Runs of a deterministic step function over a list of actions, and what holds
in every state of a run whose steps all meet a condition. -/

set_option autoImplicit false

namespace QuantArena.Foundations

variable {σ α : Type}

/-- Every step of the run meets the condition in the state it is taken in. -/
def Along (step : σ → α → σ) (allowed : σ → α → Prop) : σ → List α → Prop
  | _, [] => True
  | state, action :: rest => allowed state action ∧ Along step allowed (step state action) rest

instance Along.decidable {step : σ → α → σ} {allowed : σ → α → Prop}
    [∀ state action, Decidable (allowed state action)] :
    (state : σ) → (actions : List α) → Decidable (Along step allowed state actions)
  | _, [] => .isTrue trivial
  | state, action :: rest =>
      have : Decidable (Along step allowed (step state action) rest) := Along.decidable _ rest
      inferInstanceAs (Decidable (allowed state action ∧ Along step allowed (step state action) rest))

/-- The property holds in every state of the run, the first and the last included. -/
def Always (step : σ → α → σ) (property : σ → Prop) (state : σ) (actions : List α) : Prop :=
  ∀ before after, actions = before ++ after → property (before.foldl step state)

namespace Along

variable {step : σ → α → σ} {allowed : σ → α → Prop}

theorem append_iff {state : σ} {before after : List α} :
    Along step allowed state (before ++ after) ↔
      Along step allowed state before ∧ Along step allowed (before.foldl step state) after := by
  induction before generalizing state with
  | nil => simp [Along]
  | cons action rest ih => simp only [List.cons_append, Along, ih, List.foldl_cons, and_assoc]

theorem of_forall {actions : List α} (every : ∀ action ∈ actions, ∀ state, allowed state action)
    (state : σ) : Along step allowed state actions := by
  induction actions generalizing state with
  | nil => trivial
  | cons action rest ih =>
      exact ⟨every action List.mem_cons_self state,
        ih (fun other member => every other (List.mem_cons_of_mem _ member)) _⟩

/-- An invariant of every allowed step is one of every allowed run. -/
theorem invariant {property : σ → Prop}
    (preserved : ∀ state action, property state → allowed state action →
      property (step state action))
    {state : σ} {actions : List α} (initially : property state)
    (along : Along step allowed state actions) : property (actions.foldl step state) := by
  induction actions generalizing state with
  | nil => exact initially
  | cons action rest ih => exact ih (preserved state action initially along.1) along.2

/-- A condition that implies another one in the states of an invariant. -/
theorem imp_of_invariant {other : σ → α → Prop} {property : σ → Prop}
    (preserved : ∀ state action, property state → allowed state action →
      property (step state action))
    (implies : ∀ state action, property state → allowed state action → other state action)
    {state : σ} {actions : List α} (initially : property state)
    (along : Along step allowed state actions) : Along step other state actions := by
  induction actions generalizing state with
  | nil => trivial
  | cons action rest ih =>
      exact ⟨implies state action initially along.1,
        ih (preserved state action initially along.1) along.2⟩

theorem and {other : σ → α → Prop} {state : σ} {actions : List α}
    (first : Along step allowed state actions) (second : Along step other state actions) :
    Along step (fun state action => allowed state action ∧ other state action) state actions := by
  induction actions generalizing state with
  | nil => trivial
  | cons action rest ih => exact ⟨⟨first.1, second.1⟩, ih first.2 second.2⟩

/-- Of two conditions that agree in the states of an invariant, and that keep it, a run meets both or
neither. -/
theorem iff_of_invariant {one other : σ → α → Prop} {property : σ → Prop} {state : σ}
    {actions : List α} (along : Along step allowed state actions)
    (agree : ∀ state action, property state → allowed state action →
      (one state action ↔ other state action))
    (preserved : ∀ state action, property state → allowed state action → other state action →
      property (step state action))
    (initially : property state) : Along step one state actions ↔ Along step other state actions := by
  induction actions generalizing state with
  | nil => exact Iff.rfl
  | cons action rest ih =>
      have first := agree state action initially along.1
      constructor
      · rintro ⟨now, later⟩
        have held := first.mp now
        exact ⟨held, (ih along.2 (preserved state action initially along.1 held)).mp later⟩
      · rintro ⟨now, later⟩
        exact ⟨first.mpr now,
          (ih along.2 (preserved state action initially along.1 now)).mpr later⟩

end Along

theorem Always.of_along {step : σ → α → σ} {allowed : σ → α → Prop} {property : σ → Prop}
    (preserved : ∀ state action, property state → allowed state action →
      property (step state action))
    {state : σ} {actions : List α} (initially : property state)
    (along : Along step allowed state actions) : Always step property state actions := by
  rintro before after rfl
  exact Along.invariant preserved initially (Along.append_iff.mp along).1

/-- Where a step keeps the property exactly when it is allowed, so does a run. -/
theorem always_iff_along {step : σ → α → σ} {allowed : σ → α → Prop} {property : σ → Prop}
    (exactly : ∀ state action, property state →
      (property (step state action) ↔ allowed state action))
    {state : σ} {actions : List α} (initially : property state) :
    Always step property state actions ↔ Along step allowed state actions := by
  constructor
  · intro always
    induction actions generalizing state with
    | nil => trivial
    | cons action rest ih =>
        have next : property (step state action) := always [action] rest rfl
        refine ⟨(exactly state action initially).mp next, ih next fun before after split => ?_⟩
        exact always (action :: before) after (by rw [split, List.cons_append])
  · exact Always.of_along (fun state action held => (exactly state action held).mpr) initially

/-- Where a property follows from an invariant that the allowed steps keep, and no other step
keeps the property, it holds throughout exactly the allowed runs. -/
theorem always_iff_along_of_invariant {step : σ → α → σ} {allowed : σ → α → Prop}
    {invariant property : σ → Prop} (implies : ∀ state, invariant state → property state)
    (preserved : ∀ state action, invariant state → allowed state action →
      invariant (step state action))
    (needed : ∀ state action, invariant state → property (step state action) →
      allowed state action)
    {state : σ} {actions : List α} (initially : invariant state) :
    Always step property state actions ↔ Along step allowed state actions := by
  constructor
  · intro always
    induction actions generalizing state with
    | nil => trivial
    | cons action rest ih =>
        have now := needed state action initially (always [action] rest rfl)
        refine ⟨now, ih (preserved state action initially now) fun before after split => ?_⟩
        exact always (action :: before) after (by rw [split, List.cons_append])
  · rintro along before after rfl
    exact implies _ (Along.invariant preserved initially (Along.append_iff.mp along).1)

end QuantArena.Foundations
