import Mathlib.Logic.Basic

/-! The ways a modelled call ends without a result. A state reached by a call
that raises is not observed: every caller of interest is shown never to raise. -/

set_option autoImplicit false

namespace QuantArena.Foundations

inductive Fault where
  /-- `ValueError`, or `std::runtime_error`, with its text. -/
  | raised (message : String)
  /-- `KeyError`, or `std::out_of_range`. -/
  | missingKey
  /-- `struct.error`: a value does not fit its field. -/
  | outOfRange
  /-- A loop that did not reach its exit within the given number of rounds. -/
  | diverged
  /-- `CheckpointRefused`: what a process would have to replay has been trimmed. -/
  | refused
deriving DecidableEq, Repr

/-- A partial lookup that raises when the key is absent. -/
def orMissing {α : Type} : Option α → Except Fault α
  | none => .error .missingKey
  | some value => .ok value

@[simp] theorem orMissing_some {α : Type} (value : α) : orMissing (some value) = .ok value := rfl

theorem Fault.bind_eq_ok {α β : Type} {source : Except Fault α} {next : α → Except Fault β}
    {result : β} :
    source >>= next = .ok result ↔ ∃ value, source = .ok value ∧ next value = .ok result := by
  cases source with
  | error fault => simp [bind, Except.bind]
  | ok value => simp [bind, Except.bind]

@[simp] theorem Fault.ok_bind {α β : Type} (value : α) (next : α → Except Fault β) :
    (Except.ok value >>= next) = next value := rfl

end QuantArena.Foundations
