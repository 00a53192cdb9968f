/-! The exchange's halt state as another process reads it, and whether it changed. -/

set_option autoImplicit false

namespace QuantArena.Fanout

/-- What one read of the published key finds. -/
inductive HaltReading where
  | unreachable (error : String)
  | absent
  | malformed
  | published (halted : Bool) (reason detail : Option String)
deriving DecidableEq, Repr

structure HaltView where
  halted : Bool
  reason : Option String
  detail : Option String
  /-- Bumped on every transition, so that the tick can send one frame per change. -/
  transitions : Nat
deriving DecidableEq, Repr

namespace HaltView

def new : HaltView := ⟨false, none, none, 0⟩

/-- `_set`. A new `detail` alone is not a transition. -/
def set (view : HaltView) (halted : Bool) (reason detail : Option String) : HaltView × Bool :=
  if halted = view.halted ∧ reason = view.reason then ({ view with detail := detail }, false)
  else (⟨halted, reason, detail, view.transitions + 1⟩, true)

def refresh (view : HaltView) : HaltReading → HaltView × Bool
  | .unreachable error => view.set true (some "redis_unreachable") (some error)
  | .absent => view.set true (some "gateway_unreachable")
      (some "no gateway is publishing a halt state")
  | .malformed => view.set true (some "gateway_unreachable") (some "halt key is not readable")
  | .published halted reason detail => view.set halted reason detail

end HaltView

end QuantArena.Fanout
