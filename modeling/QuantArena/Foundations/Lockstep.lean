import QuantArena.Foundations.Fault

/-! Two computations that may raise, run side by side: either both return, with related
results, or both raise. -/

set_option autoImplicit false

namespace QuantArena.Foundations

variable {α β δ : Type}

/-- What each raises is its own. -/
def Alike (related : α → β → Prop) : Except Fault α → Except Fault β → Prop
  | .ok left, .ok right => related left right
  | .error _, .error _ => True
  | .ok _, .error _ => False
  | .error _, .ok _ => False

namespace Alike

variable {related : α → β → Prop} {left : Except Fault α}
  {right : Except Fault β}

theorem raised (leftRaises : ∀ value, left ≠ .ok value) (rightRaises : ∀ value, right ≠ .ok value) :
    Alike related left right := by
  cases left with
  | ok value => exact absurd rfl (leftRaises value)
  | error _ =>
      cases right with
      | ok value => exact absurd rfl (rightRaises value)
      | error _ => trivial

/-- The right one has a step more, which does not raise. -/
theorem bind_right (first : Alike related left right) {later : α → δ → Prop} {follow : β → δ}
    (kept : ∀ before after, related before after → later before (follow after)) :
    Alike later left (right >>= fun after => .ok (follow after)) := by
  cases left with
  | ok value =>
      cases right with
      | ok other => exact kept value other first
      | error _ => exact first.elim
  | error _ =>
      cases right with
      | ok _ => exact first.elim
      | error _ => trivial

theorem mono (alike : Alike related left right) {weaker : α → β → Prop}
    (implied : ∀ before after, related before after → weaker before after) :
    Alike weaker left right := by
  cases left with
  | ok value =>
      cases right with
      | ok other => exact implied value other alike
      | error _ => exact alike
  | error _ =>
      cases right with
      | ok _ => exact alike
      | error _ => trivial

end Alike

end QuantArena.Foundations
