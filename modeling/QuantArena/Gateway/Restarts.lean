import QuantArena.Gateway.Resuming
import QuantArena.Gateway.Solvency

/-! A gateway that dies and starts again, from any checkpoint that it has written. The new
process has read every answer before it serves a request; an order that is not answered
yet has left nothing for it to read. -/

set_option autoImplicit false

namespace QuantArena.Gateway

open Foundations Foundations.PriceTime Contracts Exchange

structure Deployment where
  system : System
  /-- Every checkpoint so far. -/
  saved : List RiskDump

inductive Turn where
  | act (action : Action)
  /-- `save_risk_checkpoint` -/
  | save
  /-- The process dies, and a new one resumes from a checkpoint. -/
  | restart (checkpoint : Nat)

namespace Deployment

/-- The first process writes a checkpoint before it serves. -/
def start (marketMakers : List Int) (initialCashTicks : Int) : Deployment :=
  let system := System.start marketMakers initialCashTicks
  ⟨system, [system.risk.dumpState]⟩

/-- The risk state that the new process serves with. The objects of the old one are left behind. -/
def resume (deployment : Deployment) (raw : RiskDump) : Option RiskState := do
  let risk := deployment.system.risk
  let fresh : RiskState := { RiskState.new risk.marketMakers with objects := risk.objects }
  let loaded ← fresh.loadState raw
  return loaded.replayFromStream deployment.system.outbound

/-- What the old process would hold by now. -/
def unbroken (deployment : Deployment) : RiskState :=
  deployment.system.risk.replayFromStream deployment.system.outbound

/-- No handler of the old process awaits its append any more. Redis may still run the script. -/
def orphaned (submissions : Dict Ref Submission) : Dict Ref Submission :=
  submissions.mapValues fun _ submission => { submission with awaiting := false }

/-- The new process writes a checkpoint before it serves, as the first one did. -/
def restarted (deployment : Deployment) (risk : RiskState) : Deployment where
  system := { deployment.system with
    risk := risk
    submissions := orphaned deployment.system.submissions }
  saved := deployment.saved ++ [risk.dumpState]

def restart (deployment : Deployment) (checkpoint : Nat) : Deployment :=
  match deployment.saved[checkpoint]?.bind deployment.resume with
  | none => deployment
  | some risk => deployment.restarted risk

def step (settings : Settings) (deployment : Deployment) : Turn → Deployment
  | .act action => { deployment with system := deployment.system.step settings action }
  | .save => { deployment with saved := deployment.saved ++ [deployment.system.risk.dumpState] }
  | .restart checkpoint => deployment.restart checkpoint

/-! ## What is to hold -/

/-- A new process starts with no more to spend or to sell than the old one would have. -/
def Tight (deployment : Deployment) : Turn → Prop
  | .restart checkpoint => ∀ risk, deployment.saved[checkpoint]?.bind deployment.resume = some risk →
      (∀ userId, risk.availableCash userId ≤ deployment.unbroken.availableCash userId) ∧
        ∀ userId symbolId,
          risk.availablePosition userId symbolId ≤ deployment.unbroken.availablePosition userId symbolId
  | _ => True

/-- Nobody has spent or sold what there was not. -/
structure Undrawn (deployment : Deployment) (marketMakers : List Int) : Prop where
  cash : ∀ userId, Funded marketMakers userId deployment.system.delivered →
    0 ≤ deployment.system.risk.settledCash.getD userId 0
  units : ∀ userId symbolId, userId ∉ marketMakers →
    0 ≤ deployment.system.risk.positions.getD (userId, symbolId) 0

/-- No reservation is given up for an order that is appended, by a handler that lives on. -/
def Allowed (deployment : Deployment) : Turn → Prop
  | .act action => deployment.system.Allowed action
  | _ => True

instance (submission : Submission) : Decidable submission.Open :=
  inferInstanceAs (Decidable (submission.appended = false ∧ submission.awaiting = true))

/-- Where a process dies, no call stands between its reservation and its append, and every order
on the inbound stream has been answered. -/
def AllAnswered (deployment : Deployment) : Turn → Prop
  | .restart checkpoint => checkpoint < deployment.saved.length →
      (∀ entry ∈ deployment.system.submissions.entries, ¬ entry.2.Open) ∧
        (deployment.system.inbound.drop deployment.system.answered).filterMap sentWith = []
  | _ => True

instance (deployment : Deployment) : (turn : Turn) → Decidable (deployment.Allowed turn)
  | .act action => inferInstanceAs (Decidable (deployment.system.Allowed action))
  | .save => .isTrue trivial
  | .restart _ => .isTrue trivial

instance (deployment : Deployment) : (turn : Turn) → Decidable (deployment.AllAnswered turn)
  | .act _ => .isTrue trivial
  | .save => .isTrue trivial
  | .restart checkpoint => inferInstanceAs (Decidable (checkpoint < deployment.saved.length →
      (∀ entry ∈ deployment.system.submissions.entries, ¬ entry.2.Open) ∧
        (deployment.system.inbound.drop deployment.system.answered).filterMap sentWith = []))

end Deployment

end QuantArena.Gateway
