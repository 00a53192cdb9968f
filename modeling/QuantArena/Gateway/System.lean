import Mathlib.Data.Finset.Insert
import QuantArena.Gateway.Idempotency
import QuantArena.Matcher.Adapter

/-! One gateway process between its streams: requests that reserve and then await
their append, the matcher that answers what was appended, and the watcher that applies
the answers to the risk state. One action is what happens between two awaits. -/

set_option autoImplicit false

namespace QuantArena.Gateway

open Foundations Contracts

/-- A `submit_order` call that has reserved. -/
structure Submission where
  order : SubmitOrder
  /-- Redis has appended the order. -/
  appended : Bool
  /-- The handler still awaits the reply. -/
  awaiting : Bool
deriving DecidableEq

def Submission.key (submission : Submission) : IdempotencyKey :=
  (submission.order.userId, submission.order.clientOrderId)

structure System where
  risk : RiskState
  /-- By the reservation that each call holds. -/
  submissions : Dict Ref Submission
  /-- The keys that Redis holds an outcome for. -/
  claimed : Finset IdempotencyKey
  inbound : List Inbound
  matcher : Matcher.NaiveMatcher
  /-- How many inbound records the matcher has answered. -/
  answered : Nat
  outbound : Stream Outbound

inductive Action where
  /-- `submit_order`, from a lookup that found nothing to the await of the append. Another
  request may have claimed the key since that lookup. -/
  | submit (userId : Int) (body : SubmitOrderRequest) (now : Int)
  /-- Redis runs the script for a call. The producer keeps what is queued also for a call that
  was given up. -/
  | append (ref : Ref)
  /-- The reply that the order was appended reaches the handler, which returns. -/
  | finish (ref : Ref)
  /-- A duplicate, a halt, another error, a lost reply or a cancellation reaches the handler. -/
  | abandon (ref : Ref)
  /-- A record that is no submission: a cancel, a registration, a credit, a configuration. -/
  | write (record : Inbound)
  | expire (key : IdempotencyKey)
  /-- The matcher answers one inbound record. -/
  | answer (now : Nat)
  /-- The watcher applies one outbound record. -/
  | watch

namespace System

def start (marketMakers : List Int) (initialCashTicks : Int) : System where
  risk := .new marketMakers
  submissions := .empty
  claimed := ∅
  inbound := []
  matcher := .new 1 initialCashTicks
  answered := 0
  outbound := .empty

def submit (settings : Settings) (system : System) (userId : Int) (body : SubmitOrderRequest)
    (now : Int) : System :=
  match body.decide settings system.risk userId now with
  | .append order risk =>
      { system with
        risk := risk
        submissions := system.submissions.set system.risk.objects.fresh ⟨order, false, true⟩ }
  | _ => system

/-- `CLAIM_AND_APPEND_SCRIPT`, once for a call. -/
def append (system : System) (ref : Ref) : System :=
  match system.submissions.get? ref with
  | none => system
  | some submission =>
      if submission.appended ∨ submission.key ∈ system.claimed then system
      else
        { system with
          submissions := system.submissions.set ref { submission with appended := true }
          claimed := insert submission.key system.claimed
          inbound := system.inbound ++ [.submitOrder submission.order] }

def finish (system : System) (ref : Ref) : System :=
  match system.submissions.get? ref with
  | none => system
  | some submission =>
      if submission.appended then
        { system with
          submissions := system.submissions.set ref { submission with awaiting := false } }
      else system

def abandon (system : System) (ref : Ref) : System :=
  match system.submissions.get? ref with
  | none => system
  | some submission =>
      if submission.awaiting then
        { system with
          risk := system.risk.abandon ref
          submissions := system.submissions.set ref { submission with awaiting := false } }
      else system

def write (system : System) : Inbound → System
  | .submitOrder _ => system
  | record => { system with inbound := system.inbound ++ [record] }

def answer (system : System) (now : Nat) : System :=
  match system.inbound[system.answered]? with
  | none => system
  | some record =>
      match system.matcher.apply record with
      | .error _ => system
      | .ok (matcher, outputs) =>
          { system with
            matcher := matcher
            answered := system.answered + 1
            outbound := system.outbound.appendAll now outputs }

def watch (system : System) : System :=
  match system.outbound.read system.risk.lastSeq 1 with
  | [] => system
  | entry :: _ => { system with risk := system.risk.apply entry.2 (some entry.1) }

/-- A step that is not enabled leaves everything as it is. -/
def step (settings : Settings) (system : System) : Action → System
  | .submit userId body now => system.submit settings userId body now
  | .append ref => system.append ref
  | .finish ref => system.finish ref
  | .abandon ref => system.abandon ref
  | .write record => system.write record
  | .expire key => { system with claimed := system.claimed.erase key }
  | .answer now => system.answer now
  | .watch => system.watch

def run (settings : Settings) (system : System) (actions : List Action) : System :=
  actions.foldl (step settings) system

/-- The outbound records that the watcher has applied. -/
def delivered (system : System) : List Outbound :=
  (system.outbound.entries.filter fun entry => entry.1 ≤ system.risk.lastSeq).map (·.2)

end System

end QuantArena.Gateway
