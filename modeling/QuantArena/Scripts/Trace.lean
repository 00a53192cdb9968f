import QuantArena.Foundations.Stream
import QuantArena.Matcher.Adapter

/-! The forward half of `trace`: from an order's place on the inbound stream to what the engine
did with it, and the pair of streams it is asked about. -/

set_option autoImplicit false

namespace QuantArena.Scripts.Trace

open Foundations Contracts Matcher

/-- The client order id and user of a record that `CLIENT_KEYED` lists. -/
def clientKeyed : Outbound → Option (Int × Int)
  | .orderAccepted accepted => some (accepted.clientOrderId, accepted.userId)
  | .orderRejected rejected => some (rejected.clientOrderId, rejected.userId)
  | .orderCancelled cancelled => some (cancelled.clientOrderId, cancelled.userId)
  | _ => none

/-- The variables of `scan_forward`. -/
structure Scan where
  hits : List (StreamId × Outbound)
  orderId : Option Int
  scanned : Nat
  cursor : StreamId
deriving DecidableEq

/-- The body of the `for` loop. -/
def Scan.read (clientOrderId : Int) (userId : Option Int) (scan : Scan)
    (entry : StreamId × Outbound) : Scan :=
  let scan := { scan with scanned := scan.scanned + 1, cursor := entry.1 }
  match clientKeyed entry.2 with
  | some (client, user) =>
      if client ≠ clientOrderId then scan
      else if userId ≠ none ∧ userId ≠ some user then scan
      else
        let scan := { scan with hits := scan.hits ++ [entry] }
        match entry.2 with
        | .orderAccepted accepted => { scan with orderId := some accepted.orderId }
        | _ => scan
  | none =>
      match entry.2, scan.orderId with
      | .fill fill, some orderId =>
          if orderId = fill.makerOrderId ∨ orderId = fill.takerOrderId then
            { scan with hits := scan.hits ++ [entry] }
          else scan
      | _, _ => scan

/-- `while scanned < budget`, cut off after `rounds` reads. -/
def scanLoop (stream : Stream Outbound) (clientOrderId : Int) (userId : Option Int)
    (budget chunk : Nat) : Nat → Scan → Except Fault Scan
  | 0, _ => .error .diverged
  | rounds + 1, scan =>
      if scan.scanned < budget then
        match stream.read scan.cursor chunk with
        | [] => .ok scan
        | item :: rest =>
            scanLoop stream clientOrderId userId budget chunk rounds
              ((item :: rest).foldl (Scan.read clientOrderId userId) scan)
      else .ok scan

/-- Each read of the stream yields something new, so its length bounds the reads. -/
def scanForward (stream : Stream Outbound) (startId : StreamId) (clientOrderId : Int)
    (userId : Option Int) (budget chunk : Nat) :
    Except Fault (List (StreamId × Outbound) × Option Int × Nat) := do
  let scan ← scanLoop stream clientOrderId userId budget chunk (stream.entries.length + 1)
    ⟨[], none, 0, startId⟩
  .ok (scan.hits, scan.orderId, scan.scanned)

/-! ## The two streams -/

/-- An inbound record and what the matcher appended for it, no earlier than in its millisecond. -/
structure Round where
  request : StreamId × Inbound
  answers : List (StreamId × Outbound)
  timely : ∀ answer ∈ answers, (ofLex request.1).1 ≤ (ofLex answer.1).1

/-- The matcher answers one record after the other. -/
def Answers (matcher : NaiveMatcher) : List Round → Prop
  | [] => True
  | round :: rest => ∃ after,
      matcher.apply round.request.2 = .ok (after, round.answers.map (·.2)) ∧ Answers after rest

/-- Both streams, the ids of the one unrelated to those of the other but for the clock. The last
inbound records may still be without an answer. -/
structure Streams where
  initialCashTicks : Int
  inbound : Stream Inbound
  outbound : Stream Outbound
  rounds : List Round
  unanswered : List (StreamId × Inbound)
  received : inbound.entries = rounds.map (·.request) ++ unanswered
  appended : outbound.entries = rounds.flatMap (·.answers)
  matched : Answers (.new 1 initialCashTicks) rounds

/-- The order id that the acknowledgement assigned. -/
def Round.orderId (round : Round) : Option Int :=
  match round.answers.head? with
  | some (_, .orderAccepted accepted) => some accepted.orderId
  | _ => none

/-- A fill of an order, as its maker or as its taker. -/
def names (orderId : Int) (fill : Fill) : Prop :=
  orderId = fill.makerOrderId ∨ orderId = fill.takerOrderId

/-- What `trace` is to find for an order: its whole life on the outbound stream. -/
structure WholeLife (streams : Streams) (round : Round) (hits : List (StreamId × Outbound)) :
    Prop where
  acknowledgement : ∃ entry ∈ round.answers.head?, entry ∈ hits
  fills : ∀ orderId ∈ round.orderId, ∀ place fill, (place, .fill fill) ∈ streams.outbound.entries →
    names orderId fill → (place, .fill fill) ∈ hits
  cancellation : ∀ orderId ∈ round.orderId, ∀ place cancelled,
    (place, .orderCancelled cancelled) ∈ streams.outbound.entries →
      cancelled.orderId = orderId → (place, .orderCancelled cancelled) ∈ hits

/-- The acceptances under a client order id, of one user or of any. -/
def acceptances (clientOrderId : Int) (userId : Option Int) (records : List Outbound) : List Int :=
  records.filterMap fun
    | .orderAccepted accepted =>
        if accepted.clientOrderId = clientOrderId ∧ (userId = none ∨ userId = some accepted.userId)
        then some accepted.orderId else none
    | _ => none

/-- The acknowledgement has the later id, though another stream issued it; and no other order
under the order's client order id was accepted between it and a fill that names it, unless the
last such order is in that fill as well. -/
structure Findable (streams : Streams) (round : Round) (clientOrderId : Int)
    (userId : Option Int) : Prop where
  later : ∀ entry ∈ round.answers.head?, round.request.1 < entry.1
  newest : ∀ orderId ∈ round.orderId, ∀ before fill after,
    streams.outbound.records = before ++ .fill fill :: after → names orderId fill →
      ∀ newest ∈ (acceptances clientOrderId userId before).getLast?, names newest fill

end QuantArena.Scripts.Trace
