import QuantArena.Foundations.Run
import QuantArena.Gateway.Accounts
import QuantArena.Gateway.System
import QuantArena.Matcher.Runs

/-! What every run of the system keeps, whatever its requests do: the outbound stream
is what the matcher answers, and the watcher stands somewhere on it. -/

set_option autoImplicit false

namespace QuantArena.Gateway

open Foundations Foundations.PriceTime Contracts Exchange

namespace System

/-- The market as it stands once the answered records are in. -/
def market (system : System) (initialCashTicks : Int) : Market × List Outbound :=
  Market.fresh.run initialCashTicks (system.inbound.take system.answered)

/-- The matcher has answered the first inbound records, and the watcher has seen `seen` of its
answers. -/
structure Feeds (system : System) (initialCashTicks : Int) (seen : Nat) : Prop where
  answered : system.answered ≤ system.inbound.length
  represents : system.matcher.Represents (system.market initialCashTicks).1
  cash : system.matcher.initialCashTicks = initialCashTicks
  outbound : system.outbound.records = (system.market initialCashTicks).2
  within : seen ≤ system.outbound.entries.length
  position : system.risk.lastSeq = system.outbound.position seen

variable {system : System} {initialCashTicks : Int} {seen : Nat}

theorem start_feeds (marketMakers : List Int) (initialCashTicks : Int) :
    (start marketMakers initialCashTicks).Feeds initialCashTicks 0 where
  answered := le_rfl
  represents := Matcher.NaiveMatcher.new_represents 1 initialCashTicks
  cash := rfl
  outbound := rfl
  within := le_rfl
  position := rfl

theorem Feeds.delivered (feeds : system.Feeds initialCashTicks seen) :
    system.delivered = system.outbound.records.take seen := by
  rw [System.delivered, feeds.position, Stream.filter_le_position, Stream.records, List.map_take]

theorem Feeds.lawful (feeds : system.Feeds initialCashTicks seen) :
    Tape.blank.LawfulAll system.outbound.records := by
  rw [feeds.outbound]
  exact (Market.run_lawful initialCashTicks Market.fresh_valid _).1

theorem Feeds.delivered_lawful (feeds : system.Feeds initialCashTicks seen) :
    Tape.blank.LawfulAll system.delivered := by
  have whole := feeds.lawful
  rw [← List.take_append_drop seen system.outbound.records] at whole
  rw [feeds.delivered]
  exact (Tape.lawfulAll_append.mp whole).1

theorem Feeds.delivered_valid (feeds : system.Feeds initialCashTicks seen) :
    (Tape.blank.readAll system.delivered).Valid :=
  Tape.blank_valid.readAll feeds.delivered_lawful

/-! ## Steps -/

/-- A step that leaves the streams and the matcher to themselves. -/
theorem Feeds.aside (feeds : system.Feeds initialCashTicks seen) {next : System}
    (inbound : next.inbound = system.inbound) (matcher : next.matcher = system.matcher)
    (answered : next.answered = system.answered) (outbound : next.outbound = system.outbound)
    (lastSeq : next.risk.lastSeq = system.risk.lastSeq) :
    next.Feeds initialCashTicks seen ∧ next.delivered = system.delivered := by
  have same : next.market initialCashTicks = system.market initialCashTicks := by
    rw [market, market, inbound, answered]
  refine ⟨⟨?_, ?_, ?_, ?_, ?_, ?_⟩, ?_⟩
  · rw [inbound, answered]
    exact feeds.answered
  · rw [matcher, same]
    exact feeds.represents
  · rw [matcher]
    exact feeds.cash
  · rw [outbound, same]
    exact feeds.outbound
  · rw [outbound]
    exact feeds.within
  · rw [lastSeq, outbound]
    exact feeds.position
  · rw [System.delivered, System.delivered, outbound, lastSeq]

/-- A record more on the inbound stream. -/
theorem Feeds.append (feeds : system.Feeds initialCashTicks seen) (record : Inbound)
    (submissions : Dict Ref Submission) (claimed : Finset IdempotencyKey) :
    Feeds { system with
      submissions := submissions
      claimed := claimed
      inbound := system.inbound ++ [record] } initialCashTicks seen := by
  have same : Market.fresh.run initialCashTicks
      ((system.inbound ++ [record]).take system.answered) = system.market initialCashTicks := by
    rw [market, List.take_append_of_le_length feeds.answered]
  refine ⟨?_, ?_, feeds.cash, ?_, feeds.within, feeds.position⟩
  · rw [List.length_append]
    exact Nat.le_add_right_of_le feeds.answered
  · simp only [market, same]
    exact feeds.represents
  · simp only [market, same]
    exact feeds.outbound

theorem samePlace_decide {body : SubmitOrderRequest} {settings : Settings} {risk reserved : RiskState}
    {userId now : Int} {order : SubmitOrder}
    (decided : body.decide settings risk userId now = .append order reserved) :
    reserved.SamePlace risk := by
  obtain ⟨-, -, -, -, -, -, held⟩ := SubmitOrderRequest.decide_append decided
  exact RiskState.samePlace_reserve held

theorem Feeds.answer (feeds : system.Feeds initialCashTicks seen) (now : Nat) :
    (system.answer now).Feeds initialCashTicks seen := by
  unfold System.answer
  cases next : system.inbound[system.answered]? with
  | none => exact feeds
  | some record =>
      have valid := Market.run_valid initialCashTicks Market.fresh_valid
        (system.inbound.take system.answered)
      obtain ⟨after, applied, represents, cash⟩ :=
        Matcher.NaiveMatcher.apply_ok feeds.represents valid record
      obtain ⟨within, -⟩ := List.getElem?_eq_some_iff.mp next
      have taken : system.inbound.take (system.answered + 1) =
          system.inbound.take system.answered ++ [record] := by
        rw [List.take_add_one, next]
        rfl
      rw [feeds.cash] at applied represents
      simp only [applied]
      have market : Market.fresh.run initialCashTicks (system.inbound.take (system.answered + 1)) =
          (((system.market initialCashTicks).1.apply initialCashTicks record).1,
            system.outbound.records ++
              ((system.market initialCashTicks).1.apply initialCashTicks record).2) := by
        rw [taken, Market.run_append, feeds.outbound]
        simp [Market.run, System.market]
      have grows := system.outbound.entries_appendAll now
        ((system.market initialCashTicks).1.apply initialCashTicks record).2
      have position := Stream.position_grows grows feeds.within
      refine ⟨within, ?_, cash.trans feeds.cash, ?_, feeds.within.trans grows.length_le,
        feeds.position.trans position.symm⟩
      · simp only [System.market, market]
        exact represents
      · simp only [System.market, market]
        exact Stream.records_appendAll ..

theorem entries_answer (system : System) (now : Nat) :
    system.outbound.entries <+: (system.answer now).outbound.entries := by
  unfold System.answer
  split
  · exact List.prefix_refl _
  · split
    · exact List.prefix_refl _
    · exact Stream.entries_appendAll ..

theorem records_answer (system : System) (now : Nat) :
    system.outbound.records <+: (system.answer now).outbound.records :=
  (entries_answer system now).map _

theorem Feeds.delivered_answer (feeds : system.Feeds initialCashTicks seen) (now : Nat) :
    (system.answer now).delivered = system.delivered := by
  obtain ⟨more, whole⟩ := records_answer system now
  have within := feeds.within
  rw [← Stream.length_records] at within
  rw [(feeds.answer now).delivered, feeds.delivered, ← whole, List.take_append_of_le_length within]

theorem risk_answer (system : System) (now : Nat) : (system.answer now).risk = system.risk := by
  unfold System.answer
  split
  · rfl
  · split <;> rfl

theorem submissions_answer (system : System) (now : Nat) :
    (system.answer now).submissions = system.submissions := by
  unfold System.answer
  split
  · rfl
  · split <;> rfl

/-- The record that the watcher would apply next, with its id. -/
def next? (system : System) : Option (StreamId × Outbound) :=
  (system.outbound.read system.risk.lastSeq 1).head?

theorem watch_eq (system : System) : system.watch =
    match system.next? with
    | none => system
    | some entry => { system with risk := system.risk.apply entry.2 (some entry.1) } := by
  unfold System.watch next?
  cases system.outbound.read system.risk.lastSeq 1 <;> rfl

theorem Feeds.next? (feeds : system.Feeds initialCashTicks seen) :
    system.next? = system.outbound.entries[seen]? := by
  rw [System.next?, feeds.position, Stream.read_position, List.head?_take, if_neg (by decide),
    List.head?_drop]

theorem Feeds.watch (feeds : system.Feeds initialCashTicks seen) {entry : StreamId × Outbound}
    (next : system.next? = some entry) :
    Feeds { system with risk := system.risk.apply entry.2 (some entry.1) } initialCashTicks
      (seen + 1) ∧
    System.delivered { system with risk := system.risk.apply entry.2 (some entry.1) } =
      system.delivered ++ [entry.2] := by
  have found := feeds.next? ▸ next
  obtain ⟨within, same⟩ := List.getElem?_eq_some_iff.mp found
  have taken : system.outbound.entries.take (seen + 1) =
      system.outbound.entries.take seen ++ [entry] := by
    rw [List.take_add_one, found]
    rfl
  have after : Feeds { system with risk := system.risk.apply entry.2 (some entry.1) }
      initialCashTicks (seen + 1) := by
    refine ⟨feeds.answered, feeds.represents, feeds.cash, feeds.outbound, within, ?_⟩
    rw [RiskState.lastSeq_apply, Stream.position, taken, List.getLast?_concat]
  refine ⟨after, ?_⟩
  rw [after.delivered, feeds.delivered, Stream.records, ← List.map_take, ← List.map_take, taken,
    List.map_append]
  rfl

/-- The next record is one the tape allows. -/
theorem Feeds.next_lawful (feeds : system.Feeds initialCashTicks seen)
    {entry : StreamId × Outbound} (next : system.next? = some entry) :
    (Tape.blank.readAll system.delivered).Lawful entry.2 := by
  obtain ⟨after, delivered⟩ := feeds.watch next
  have lawful := after.delivered_lawful
  rw [delivered] at lawful
  exact lawful.at_split

/-! ## What a step can be -/

inductive Moves (settings : Settings) (system : System) : Action → System → Prop where
  /-- The action was not enabled. -/
  | idle (action : Action) : Moves settings system action system
  | submit {userId : Int} {body : SubmitOrderRequest} {now : Int} {order : SubmitOrder}
      {risk : RiskState} (decided : body.decide settings system.risk userId now = .append order risk) :
      Moves settings system (.submit userId body now) { system with
        risk := risk
        submissions := system.submissions.set system.risk.objects.fresh ⟨order, false, true⟩ }
  | append {ref : Ref} {submission : Submission}
      (found : system.submissions.get? ref = some submission)
      (waiting : submission.appended = false) (free : submission.key ∉ system.claimed) :
      Moves settings system (.append ref) { system with
        submissions := system.submissions.set ref { submission with appended := true }
        claimed := insert submission.key system.claimed
        inbound := system.inbound ++ [.submitOrder submission.order] }
  | finish {ref : Ref} {submission : Submission}
      (found : system.submissions.get? ref = some submission) (appended : submission.appended = true) :
      Moves settings system (.finish ref) { system with
        submissions := system.submissions.set ref { submission with awaiting := false } }
  | abandon {ref : Ref} {submission : Submission}
      (found : system.submissions.get? ref = some submission) (awaiting : submission.awaiting = true) :
      Moves settings system (.abandon ref) { system with
        risk := system.risk.abandon ref
        submissions := system.submissions.set ref { submission with awaiting := false } }
  | write {record : Inbound} (foreign : ∀ order, record ≠ .submitOrder order) :
      Moves settings system (.write record) { system with inbound := system.inbound ++ [record] }
  | expire (key : IdempotencyKey) :
      Moves settings system (.expire key) { system with claimed := system.claimed.erase key }
  | answer (now : Nat) : Moves settings system (.answer now) (system.answer now)
  | watch {entry : StreamId × Outbound} (next : system.next? = some entry) :
      Moves settings system .watch { system with
        risk := system.risk.apply entry.2 (some entry.1) }

theorem step_moves (settings : Settings) (system : System) (action : Action) :
    Moves settings system action (system.step settings action) := by
  cases action with
  | submit userId body now =>
      simp only [step, submit]
      split
      · exact .submit ‹_›
      · exact .idle _
  | append ref =>
      simp only [step, append]
      split
      · exact .idle _
      · rename_i submission found
        split
        · exact .idle _
        · rename_i enabled
          obtain ⟨waiting, free⟩ := not_or.mp enabled
          exact .append found (Bool.eq_false_iff.mpr waiting) free
  | finish ref =>
      simp only [step, finish]
      split
      · exact .idle _
      · split
        · exact .finish ‹_› ‹_›
        · exact .idle _
  | abandon ref =>
      simp only [step, abandon]
      split
      · exact .idle _
      · split
        · exact .abandon ‹_› ‹_›
        · exact .idle _
  | write record =>
      cases record with
      | submitOrder _ => exact .idle _
      | cancelOrder _ => exact .write (by simp)
      | createAccount _ => exact .write (by simp)
      | creditCash _ => exact .write (by simp)
      | configureReplay _ => exact .write (by simp)
      | other => exact .write (by simp)
  | expire key => exact .expire key
  | answer now => exact .answer now
  | watch =>
      simp only [step]
      rw [watch_eq]
      split
      · exact .idle _
      · exact .watch ‹_›

end System

end QuantArena.Gateway
