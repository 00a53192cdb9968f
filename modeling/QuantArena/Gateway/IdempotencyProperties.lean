import QuantArena.Foundations.Run
import QuantArena.Gateway.Idempotency

/-! A key is written once. From then on the stored outcome, the record on the inbound
stream and what any call has been told about it are one thing. -/

set_option autoImplicit false

namespace QuantArena.Gateway

open Foundations Contracts

/-- The stream holds the record an acceptance under the key names, and no other. -/
def Redis.Records (redis : Redis) (key : IdempotencyKey) : Prop :=
  redis.recordsFor key =
    match redis.keys.get? key with
    | some (.accepted seq) => [seq]
    | _ => []

/-- What a step may do to Redis, as one key sees it. -/
structure Redis.Keeps (before after : Redis) (key : IdempotencyKey) : Prop where
  records : before.Records key → after.Records key
  stored : ∀ outcome, before.keys.get? key = some outcome → after.keys.get? key = some outcome

def ClaimedAppend.outcome : ClaimedAppend → IdempotencyOutcome
  | .appended streamId => .accepted streamId
  | .duplicate existing => existing

/-- The outcome that a call at this stage has in hand. An answer counts when it names a record. -/
def Stage.seen : Stage → Option IdempotencyOutcome
  | .lookedUp stored => stored
  | .answered (.accepted seq) => some (.accepted seq)
  | _ => none

/-- A call queued a record of its own key, and read nothing but what the key holds. -/
structure Call.Consistent (call : Call) (redis : Redis) (key : IdempotencyKey) : Prop where
  queued : ∀ record, call.queued = some record → keyOf? record = some call.key
  seen : call.key = key → ∀ outcome, call.stage.seen = some outcome →
    redis.keys.get? key = some outcome
  results : call.key = key → ∀ claimed ∈ call.results,
    redis.keys.get? key = some claimed.outcome

namespace Redis

theorem Keeps.refl (redis : Redis) (key : IdempotencyKey) : redis.Keeps redis key :=
  ⟨id, fun _ => id⟩

theorem recordsFor_append (redis : Redis) (key : IdempotencyKey) (now : Nat) (record : Inbound)
    (keys : Dict IdempotencyKey IdempotencyOutcome) :
    recordsFor ⟨keys, redis.inbound.append now record⟩ key =
      redis.recordsFor key ++
        if keyOf? record = some key then [redis.inbound.lastId.next now] else [] := by
  by_cases own : keyOf? record = some key <;> simp [recordsFor, Stream.append, own]

/-- After the script the key holds what the script answered. -/
theorem claimAndAppend_spec (redis : Redis) {claimed : IdempotencyKey} {record : Inbound}
    (own : keyOf? record = some claimed) (now : Nat) (key : IdempotencyKey) :
    redis.Keeps (redis.claimAndAppend claimed record now).1 key ∧
      (redis.claimAndAppend claimed record now).1.keys.get? claimed =
        some (redis.claimAndAppend claimed record now).2.outcome := by
  unfold claimAndAppend
  cases stored : redis.keys.get? claimed with
  | some existing => exact ⟨.refl redis key, stored⟩
  | none =>
      refine ⟨⟨?_, ?_⟩, Dict.get?_set_self _ _ _⟩
      · intro records
        rw [Records] at records ⊢
        rw [recordsFor_append, own, records]
        by_cases same : key = claimed
        · subst same
          simp [stored]
        · simp [Dict.get?_set_of_ne _ _ same, Ne.symm same]
      · intro outcome held
        have different : key ≠ claimed := by
          rintro rfl
          rw [stored] at held
          cases held
        rw [Dict.get?_set_of_ne _ _ different]
        exact held

theorem setRejected_keeps (redis : Redis) (claimed : IdempotencyKey) (reason : RejectReason)
    (key : IdempotencyKey) : redis.Keeps (redis.setRejected claimed reason).1 key := by
  unfold setRejected
  cases stored : redis.keys.get? claimed with
  | some existing => exact .refl redis key
  | none =>
      by_cases same : key = claimed
      · subst same
        refine ⟨fun records => ?_, fun outcome held => ?_⟩
        · have none_yet : redis.recordsFor key = [] := by
            rw [records]
            simp [stored]
          rw [Records, Dict.get?_set_self]
          exact none_yet
        · rw [stored] at held
          cases held
      · refine ⟨fun records => ?_, fun outcome held => ?_⟩
        · rw [Records, Dict.get?_set_of_ne _ _ same]
          exact records
        · rw [Dict.get?_set_of_ne _ _ same]
          exact held

end Redis

namespace Call

variable {call : Call} {redis after : Redis} {key : IdempotencyKey}

theorem Consistent.later (consistent : call.Consistent redis key)
    (keeps : redis.Keeps after key) : call.Consistent after key where
  queued := consistent.queued
  seen own outcome held := keeps.stored outcome (consistent.seen own outcome held)
  results own claimed member := keeps.stored _ (consistent.results own claimed member)

/-- Only a looked-up outcome or an acceptance has to be accounted for at a new stage. -/
theorem Consistent.moved (consistent : call.Consistent redis key) (stage : Stage)
    (seen : call.key = key → ∀ outcome, stage.seen = some outcome →
      redis.keys.get? key = some outcome) :
    ({ call with stage := stage }).Consistent redis key :=
  ⟨consistent.queued, seen, consistent.results⟩

theorem Consistent.answered (consistent : call.Consistent redis key)
    (outcome : IdempotencyOutcome)
    (stored : call.key = key → redis.keys.get? key = some outcome) :
    ({ call with stage := .answered (.of outcome) }).Consistent redis key := by
  refine consistent.moved _ fun own seen told => ?_
  cases outcome with
  | accepted seq =>
      cases told
      exact stored own
  | inProgress => cases told
  | rejected reason => cases told

theorem Consistent.proceed (consistent : call.Consistent redis key) (settings : Settings)
    (risk : RiskState) (now : Int) : (call.proceed settings risk now).Consistent redis key := by
  unfold Call.proceed
  split
  · rename_i outcome reached
    exact consistent.answered outcome fun own =>
      consistent.seen own outcome (by simp [reached, Stage.seen])
  · split
    · rename_i body submits
      split
      · exact consistent.moved _ fun _ _ told => by cases told
      · exact consistent.moved _ fun _ _ told => by cases told
      · rename_i order reserved decided
        obtain ⟨-, sameUser, sameClient, -⟩ := SubmitOrderRequest.decide_append decided
        refine ⟨?_, fun _ _ told => (by cases told), consistent.results⟩
        rintro record ⟨⟩
        simp [keyOf?, Call.key, Body.clientOrderId, submits, sameUser, sameClient]
    · rename_i clientOrderId target cancels
      refine ⟨?_, fun _ _ told => (by cases told), consistent.results⟩
      rintro record ⟨⟩
      simp [keyOf?, Call.key, Body.clientOrderId, cancels]
  · exact consistent

theorem Consistent.abort (consistent : call.Consistent redis key) (answer : Answer) :
    (call.abort answer).Consistent redis key := by
  unfold Call.abort
  split
  · exact consistent
  all_goals exact consistent.moved _ fun _ _ told => by cases told

theorem Consistent.finish (consistent : call.Consistent redis key) {claimed : ClaimedAppend}
    (replied : claimed ∈ call.results) : (call.finish claimed).Consistent redis key := by
  unfold Call.finish
  have stored := fun own => consistent.results own claimed replied
  split
  · rename_i streamId _
    exact consistent.answered (.accepted streamId) stored
  · rename_i existing _
    exact consistent.answered existing stored
  · exact consistent

end Call

namespace Requests

/-- The whole state, as one key sees it. -/
structure Consistent (state : Requests) (key : IdempotencyKey) : Prop where
  records : state.redis.Records key
  calls : ∀ call ∈ state.calls, call.Consistent state.redis key

/-- What one call may do: leave the key as it was or write it once, and know what it holds. -/
def Sound (key : IdempotencyKey) (run : Redis → Call → Redis × Call) : Prop :=
  ∀ redis call, Call.Consistent call redis key →
    redis.Keeps (run redis call).1 key ∧ (run redis call).2.Consistent (run redis call).1 key

theorem fresh_consistent (key : IdempotencyKey) : fresh.Consistent key :=
  ⟨rfl, by simp [fresh]⟩

theorem Consistent.update {state : Requests} {key : IdempotencyKey}
    (consistent : state.Consistent key) (index : Nat) {run : Redis → Call → Redis × Call}
    (sound : Sound key run) : (state.update index run).Consistent key := by
  unfold Requests.update
  cases located : state.calls[index]? with
  | none => exact consistent
  | some call =>
      have member := List.mem_of_getElem? located
      obtain ⟨keeps, own⟩ := sound state.redis call (consistent.calls call member)
      refine ⟨keeps.records consistent.records, fun other present => ?_⟩
      cases List.mem_or_eq_of_mem_set present with
      | inl old => exact (consistent.calls other old).later keeps
      | inr same => exact same ▸ own

section Sound

variable (key : IdempotencyKey)

theorem read_sound : Sound key read := by
  intro redis call consistent
  unfold read
  split
  · refine ⟨.refl redis key, consistent.moved _ fun own outcome told => ?_⟩
    exact own ▸ told
  · exact ⟨.refl redis key, consistent⟩

theorem proceed_sound (settings : Settings) (risk : RiskState) (now : Int) :
    Sound key fun redis call => (redis, call.proceed settings risk now) :=
  fun redis _ consistent => ⟨.refl redis key, consistent.proceed settings risk now⟩

theorem abort_sound (answer : Answer) : Sound key fun redis call => (redis, call.abort answer) :=
  fun redis _ consistent => ⟨.refl redis key, consistent.abort answer⟩

theorem recordRejected_sound (replied : Bool) : Sound key (recordRejected replied) := by
  intro redis call consistent
  unfold recordRejected
  split
  · rename_i reason reached
    have keeps := redis.setRejected_keeps call.key reason key
    have later := consistent.later keeps
    simp only
    split
    · exact ⟨keeps, later⟩
    · split
      · exact ⟨keeps, later.moved _ fun _ _ told => by cases told⟩
      · exact ⟨keeps, later.moved _ fun _ _ told => by cases told⟩
  · exact ⟨.refl redis key, consistent⟩

theorem readBack_sound : Sound key readBack := by
  intro redis call consistent
  unfold readBack
  split
  · rename_i reason reached
    refine ⟨.refl redis key, ?_⟩
    cases stored : redis.keys.get? call.key with
    | none => exact consistent.moved _ fun _ _ told => by cases told
    | some outcome => exact consistent.answered outcome fun own => own ▸ stored
  · exact ⟨.refl redis key, consistent⟩

theorem runScript_sound (now : Nat) : Sound key (runScript now) := by
  intro redis call consistent
  unfold runScript
  split
  · exact ⟨.refl redis key, consistent⟩
  · rename_i record queued
    obtain ⟨keeps, stored⟩ := redis.claimAndAppend_spec (consistent.queued record queued) now key
    have later := consistent.later keeps
    refine ⟨keeps, later.queued, later.seen, fun own claimed replied => ?_⟩
    cases List.mem_append.mp replied with
    | inl old => exact later.results own claimed old
    | inr new =>
        cases List.mem_singleton.mp new
        exact own ▸ stored

theorem finish_sound (reply : Nat) : Sound key (finish reply) := by
  intro redis call consistent
  unfold finish
  cases located : call.results[reply]? with
  | none => exact ⟨.refl redis key, consistent⟩
  | some claimed =>
      exact ⟨.refl redis key, consistent.finish (List.mem_of_getElem? located)⟩

end Sound

theorem Consistent.step {state : Requests} {key : IdempotencyKey}
    (consistent : state.Consistent key) (settings : Settings) {step : Step}
    (kept : step ≠ .expire key) : (state.step settings step).Consistent key := by
  cases step with
  | arrive userId body =>
      refine ⟨consistent.records, fun call present => ?_⟩
      cases List.mem_append.mp present with
      | inl old => exact consistent.calls call old
      | inr new =>
          cases List.mem_singleton.mp new
          refine ⟨?_, ?_, ?_⟩ <;> simp [Stage.seen]
  | read call => exact consistent.update call (read_sound key)
  | proceed call risk now => exact consistent.update call (proceed_sound key settings risk now)
  | recordRejected call replied => exact consistent.update call (recordRejected_sound key replied)
  | readBack call => exact consistent.update call (readBack_sound key)
  | runScript call now => exact consistent.update call (runScript_sound key now)
  | finish call reply => exact consistent.update call (finish_sound key reply)
  | abort call answer => exact consistent.update call (abort_sound key answer)
  | append now record =>
      simp only [Requests.step]
      cases unkeyed : keyOf? record with
      | some other => exact consistent
      | none =>
          have keeps : state.redis.Keeps
              { state.redis with inbound := state.redis.inbound.append now record } key := by
            refine ⟨fun records => ?_, fun _ => id⟩
            rw [Redis.Records] at records ⊢
            rw [Redis.recordsFor_append, unkeyed, records]
            simp
          exact ⟨keeps.records consistent.records, fun call present =>
            (consistent.calls call present).later keeps⟩
  | expire other =>
      have different : key ≠ other := fun same => kept (same ▸ rfl)
      have keeps : state.redis.Keeps
          { state.redis with keys := state.redis.keys.erase other } key := by
        refine ⟨fun records => ?_, fun outcome held => ?_⟩
        · rw [Redis.Records, Dict.get?_erase_of_ne _ different]
          exact records
        · rw [Dict.get?_erase_of_ne _ different]
          exact held
      exact ⟨keeps.records consistent.records, fun call present =>
        (consistent.calls call present).later keeps⟩

theorem run_consistent (settings : Settings) {key : IdempotencyKey} {steps : List Step}
    (kept : .expire key ∉ steps) : (run settings steps).Consistent key := by
  have along : Along (step settings) (fun _ step => step ≠ .expire key) fresh steps := by
    refine Along.of_forall (fun step member _ => ?_) fresh
    rintro rfl
    exact kept member
  have preserved : ∀ (state : Requests) (step : Step), state.Consistent key →
      step ≠ .expire key → (state.step settings step).Consistent key :=
    fun _ _ consistent => consistent.step settings
  exact along.invariant preserved (fresh_consistent key)

/-- While its key lasts, a client order id has at most one record on the inbound stream, has
none once its outcome is a rejection, and every acceptance names that record. -/
theorem appended_at_most_once (settings : Settings) (key : IdempotencyKey) (steps : List Step)
    (kept : .expire key ∉ steps) :
    ((run settings steps).redis.recordsFor key).length ≤ 1 ∧
      (∀ reason, (run settings steps).redis.keys.get? key = some (.rejected reason) →
        (run settings steps).redis.recordsFor key = []) ∧
      ∀ call ∈ (run settings steps).calls, call.key = key →
        ∀ seq, call.stage = .answered (.accepted seq) →
          (run settings steps).redis.recordsFor key = [seq] := by
  have consistent := run_consistent settings kept
  have records := consistent.records
  rw [Redis.Records] at records
  refine ⟨?_, fun reason rejected => ?_, fun call present own seq answered => ?_⟩
  · rw [records]
    split <;> simp
  · rw [records, rejected]
  · have stored := (consistent.calls call present).seen own (.accepted seq) (by
      simp [answered, Stage.seen])
    rw [records, stored]

/-- A buy whose reply is lost, and its retry. -/
def lostReply : List Step :=
  let risk := { RiskState.new [] with settledCash := .set .empty 1 1000000 }
  let body : Body := .submit ⟨7, 1, .buy, .gtc, some 100, 5, .limit, by decide, by decide,
    by simp, by decide, rfl⟩
  [.arrive 1 body, .read 0, .proceed 0 risk 1, .runScript 0 100, .abort 0 .failed,
    .arrive 1 body, .read 1, .proceed 1 risk 2]

theorem lost_reply_is_one_record :
    ((run ⟨[1], 500, by decide⟩ lostReply).redis.recordsFor (1, 7)).length ≤ 1 ∧
      (run ⟨[1], 500, by decide⟩ lostReply).calls.map (·.stage) =
        [.answered .failed, .answered (.accepted (toLex (100, 0)))] :=
  ⟨(appended_at_most_once ⟨[1], 500, by decide⟩ (1, 7) lostReply (by simp [lostReply])).1, rfl⟩

end Requests

end QuantArena.Gateway
