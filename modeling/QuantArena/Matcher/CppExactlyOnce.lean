import QuantArena.Matcher.CppRuns

/-! What a run of the C++ deployment leaves behind: every inbound record is answered once, whichever
process dies and whenever, the worker is in the state that those answers imply, and what has been
trimmed is missed only by a process without a checkpoint, which refuses to start. -/

set_option autoImplicit false

namespace QuantArena.Matcher

open Foundations Contracts Exchange Gateway Engine.Cpp

variable {settings : CppSettings}

/-! ## What was ever appended only grows -/

structure CppRedis.Grows (before after : CppRedis) : Prop where
  inbound : before.inbound.history.entries <+: after.inbound.history.entries
  outbound : before.outbound.history.entries <+: after.outbound.history.entries

theorem CppRedis.Grows.refl (redis : CppRedis) : redis.Grows redis :=
  ⟨List.prefix_refl _, List.prefix_refl _⟩

theorem CppRedis.Grows.trans {one two three : CppRedis} (first : one.Grows two)
    (second : two.Grows three) : one.Grows three :=
  ⟨first.inbound.trans second.inbound, first.outbound.trans second.outbound⟩

theorem CppMatcher.step_grows (redis : CppRedis) (matcher : CppMatcher) (now count : Nat)
    (reply : Reply) : redis.Grows (CppMatcher.step redis matcher now count reply).1 := by
  unfold CppMatcher.step
  split
  · exact .refl redis
  · exact .refl redis
  · exact .refl redis
  · split
    · exact .refl redis
    · dsimp only
      split
      · exact .refl redis
      · split
        · exact .refl redis
        · cases reply with
          | ok => exact ⟨List.prefix_refl _, redis.outbound.history.entries_appendAll now _⟩
          | failed => exact .refl redis
          | lost => exact ⟨List.prefix_refl _, redis.outbound.history.entries_appendAll now _⟩

theorem CppMatcher.writeCheckpoint_grows (redis : CppRedis) (matcher : CppMatcher) (reply : Reply) :
    redis.Grows (CppMatcher.writeCheckpoint redis matcher reply).1 := by
  unfold CppMatcher.writeCheckpoint
  split
  · exact .refl redis
  · split
    · exact .refl redis
    · cases reply <;> exact ⟨List.prefix_refl _, List.prefix_refl _⟩

theorem CppSystem.append_grows (redis : CppRedis) (now : Nat) (request : GatewayRequest) :
    redis.Grows (CppSystem.append redis now request) := by
  unfold CppSystem.append
  split
  · exact ⟨redis.inbound.history.entries_append now _, List.prefix_refl _⟩
  · exact .refl redis

theorem CppSystem.act_grows (settings : CppSettings) (system : CppSystem) (action : CppAction) :
    system.redis.Grows (system.act settings action).redis := by
  cases action with
  | gateway now request => exact append_grows system.redis now request
  | step now count reply =>
      cases phase : system.process with
      | running matcher =>
          have grows := CppMatcher.step_grows system.redis matcher now count reply
          cases stepped : CppMatcher.step system.redis matcher now count reply with
          | mk redis next =>
              rw [stepped] at grows
              simp only [act, phase, stepped]
              cases next <;> exact grows
      | _ => simp only [act, phase]; exact .refl _
  | writeCheckpoint reply =>
      cases phase : system.process with
      | recovered matcher =>
          have grows := CppMatcher.writeCheckpoint_grows system.redis matcher reply
          cases wrote : CppMatcher.writeCheckpoint system.redis matcher reply with
          | mk redis next =>
              rw [wrote] at grows
              simp only [act, phase, wrote]
              cases next <;> exact grows
      | running matcher =>
          have grows := CppMatcher.writeCheckpoint_grows system.redis matcher reply
          cases wrote : CppMatcher.writeCheckpoint system.redis matcher reply with
          | mk redis next =>
              rw [wrote] at grows
              simp only [act, phase, wrote]
              cases next <;> exact grows
      | _ => simp only [act, phase]; exact .refl _
  | boot survives =>
      simp only [act]
      split
      · split <;> exact .refl _
      · exact .refl _
  | retry survives =>
      simp only [act]
      split
      · split <;> exact .refl _
      · exact .refl _
  | start =>
      simp only [act]
      split <;> exact .refl _
  | trimInbound others count =>
      simp only [act]
      split
      · exact ⟨by rw [history_trim], List.prefix_refl _⟩
      · exact .refl _
  | trimOutbound others count =>
      simp only [act]
      split
      · exact ⟨List.prefix_refl _, by rw [history_trim]⟩
      · exact .refl _
  | _ => exact ⟨List.prefix_refl _, List.prefix_refl _⟩

theorem CppSystem.run_grows (settings : CppSettings) (system : CppSystem) (actions : List CppAction) :
    system.redis.Grows (system.run settings actions).redis := by
  induction actions generalizing system with
  | nil => exact .refl _
  | cons action rest ih => exact (system.act_grows settings action).trans (ih _)

/-- What fits at the end of a run fitted all along. -/
theorem Within.earlier {before after : Stream (List UInt8)} (within_ : Within settings after)
    (grows : before.entries <+: after.entries) : Within settings before := by
  have records : (sentRecords before) <+: sentRecords after := (grows.map _).map _
  refine ⟨grows.length_le.trans_lt within_.counted, fun count => ?_,
    fun entry member => within_.ids entry (grows.subset member)⟩
  have framed := within_.framed (min count (sentRecords before).length)
  rw [← List.take_take, ← List.prefix_iff_eq_take.mp records] at framed
  exact framed

/-! ## Exactly once -/

/-- A matcher that has answered the first `count` records of the inbound stream, with a worker whose
snapshot is the one given. -/
structure CppMatcher.Stands (matcher : CppMatcher) (redis : CppRedis) (count : Nat)
    (snapshot : Except Fault (List UInt8)) : Prop where
  inbound : matcher.lastInboundId = redis.inbound.history.position count
  outbound : matcher.lastOutboundId = redis.outbound.history.lastId
  worker : ∃ worker, matcher.worker = some worker ∧
    (CppEngineProcess.snapshot worker).map (·.2) = snapshot

/-- Without a checkpoint a process begins at the start, and part of what was there is gone. -/
def CppRedis.Stranded (redis : CppRedis) : Prop :=
  redis.checkpoint = none ∧ ¬ (redis.inbound.removed = 0 ∧ redis.outbound.removed = 0)

variable {count : Nat}

theorem CppRedis.Pinned.resumable_iff {cpp : CppRedis} {place : StreamId}
    (pinned : cpp.Pinned place) : cpp.Resumable ↔ ¬ cpp.Stranded := by
  unfold CppRedis.Resumable CppRedis.Stranded
  cases found : cpp.checkpoint with
  | none =>
      simp only [Option.map_none, Option.getD_none, Retained.reaches_start, true_and, not_not]
  | some saved =>
      obtain ⟨inbound, outbound⟩ := pinned.saved saved found
      simp only [Option.map_some, Option.getD_some, reduceCtorEq, false_and, not_false_eq_true,
        iff_true]
      exact ⟨inbound.reaches, outbound.reaches⟩

/-- What has not been answered is still on the stream. -/
theorem CppRedis.Pinned.mem_inbound {cpp : CppRedis} {inbound : Stream Inbound}
    (pinned : cpp.Pinned (inbound.position count))
    (carries : Carries Inbound.wire? cpp.inbound.history inbound) :
    ∀ entry ∈ cpp.inbound.history.entries.drop count, entry ∈ cpp.inbound.entries := by
  intro entry member
  refine pinned.inbound.reaches.mem_entries (List.mem_of_mem_drop member) ?_
  rw [← carries.position]
  exact (cpp.inbound.history.position_splits count).2 entry member

theorem Runs.stands {cpp : CppRedis} {redis : Redis} {matcher : CppMatcher} {worker : Worker}
    {runner : Runner} (runs : Runs settings matcher worker runner)
    (stands : runner.Stands settings.toSettings redis count)
    (inflow : Inflow cpp.inbound.history redis.inbound)
    (outflow : Carries answerWire cpp.outbound.history redis.outbound)
    (within_ : Within settings cpp.inbound.history)
    (earlier : count ≤ redis.inbound.entries.length) {naive : NaiveMatcher}
    (represents : naive.Represents (answered settings.toSettings redis.inbound count).1) :
    matcher.Stands cpp count naive.snapshot := by
  obtain ⟨market, same, serves⟩ := runs.market
  obtain rfl := same.unique stands.represents
  have savable := within_.savable inflow earlier
  obtain ⟨served, taken, -⟩ := CppEngineProcess.snapshot_ok serves savable
  have snapshot := (EngineSnapshot.pack_eq_ok (marketSnapshot_ordered
    (answered_valid settings.toSettings redis.inbound count))).mpr ⟨savable.fits, rfl⟩
  refine ⟨?_, ?_, worker, runs.live, ?_⟩
  · rw [runs.inbound, stands.inbound, inflow.carries.position]
  · rw [runs.outbound, stands.outbound]
    exact (Stream.reached_congr outflow.ids .start).symm
  · rw [taken, represents.snapshot_eq, snapshot]
    rfl

/-- As long as nothing outgrows its width and `start` finds its worker alive, the bytes ever written
to the outbound stream are what an uninterrupted naive matcher writes for some first inbound records,
and a live worker goes on from exactly those. So does a recovery, unless the checkpoint is gone from
a trimmed stream, where it is refused. No record without an answer has been trimmed. -/
theorem deployment_is_exactly_once (settings : CppSettings) (actions : List CppAction)
    (within_ : Within settings (CppSystem.start.run settings actions).redis.inbound.history)
    (alive : Along (CppSystem.act settings) (orderly · ·) .start actions) :
    ∃ sent answers count matcher,
      Carries Inbound.wire? (CppSystem.start.run settings actions).redis.inbound.history sent ∧
      Carries answerWire (CppSystem.start.run settings actions).redis.outbound.history answers ∧
      count ≤ sent.entries.length ∧
      (NaiveMatcher.new 1 settings.initialCashTicks).applyAll (sent.records.take count) =
        .ok (matcher, answers.records) ∧
      (∀ live, (CppSystem.start.run settings actions).process.matcher? = some live →
        live.worker.isSome →
        live.Stands (CppSystem.start.run settings actions).redis count matcher.snapshot) ∧
      ((CppSystem.start.run settings actions).redis.Stranded →
        CppMatcher.recover settings (CppSystem.start.run settings actions).redis =
          .error .refused) ∧
      (¬ (CppSystem.start.run settings actions).redis.Stranded → ∃ recovered,
        CppMatcher.recover settings (CppSystem.start.run settings actions).redis = .ok recovered ∧
        recovered.Stands (CppSystem.start.run settings actions).redis count matcher.snapshot) ∧
      (∀ entry ∈ (CppSystem.start.run settings actions).redis.inbound.history.entries.drop count,
        entry ∈ (CppSystem.start.run settings actions).redis.inbound.entries) ∧
      ∀ later, (CppSystem.start.run settings actions).redis.Grows
        (CppSystem.start.run settings (actions ++ later)).redis := by
  have always : Always (CppSystem.act settings)
      (fun system => Within settings system.redis.inbound.history) .start actions := by
    intro before after split
    have whole : CppSystem.start.run settings actions =
        (CppSystem.start.run settings before).run settings after := by
      rw [split, CppSystem.run, List.foldl_append]
      rfl
    rw [whole] at within_
    exact within_.earlier ((CppSystem.start.run settings before).run_grows settings after).inbound
  obtain ⟨naiveActions, refines⟩ := (start_refines settings).run always alive
  have grows : ∀ later, (CppSystem.start.run settings actions).redis.Grows
      (CppSystem.start.run settings (actions ++ later)).redis := by
    intro later
    rw [CppSystem.run, CppSystem.run, List.foldl_append]
    exact CppSystem.run_grows settings _ later
  generalize CppSystem.start.run settings actions = system at *
  generalize System.start.run settings.toSettings naiveActions = naive at refines
  obtain ⟨count, answers, pinned⟩ := refines.answers
  obtain ⟨matcher, finished, represents, -⟩ := NaiveMatcher.fresh_run settings.initialCashTicks
    (naive.redis.inbound.records.take count)
  have earlier := answers.redis.within
  refine ⟨naive.redis.inbound, naive.redis.outbound, count, matcher, refines.inflow.carries,
    refines.outflow, earlier, ?_, ?_, ?_, ?_, pinned.mem_inbound refines.inflow.carries, grows⟩
  · rw [answers.redis.outbound]
    exact finished
  · intro live found alive
    obtain ⟨worker, living⟩ := Option.isSome_iff_exists.mp alive
    obtain ⟨runner, beside, runs⟩ := refines.runs found living
    exact runs.stands (answers.runner runner beside) refines.inflow refines.outflow within_
      earlier represents
  · intro stranded
    have behind : ¬ system.redis.Resumable := fun resumable =>
      pinned.resumable_iff.mp resumable stranded
    rw [CppMatcher.recover, resumePositions_eq_refused behind]
    rfl
  · intro whole
    obtain ⟨resumed, recovered, worker, again, served, runs⟩ := recover_alike answers.redis
      refines.inflow refines.outflow refines.checkpoint within_ (pinned.resumable_iff.mpr whole)
    obtain ⟨stood, succeeded, stands⟩ := recover_ok answers.redis
    cases succeeded.symm.trans again
    exact ⟨recovered, served,
      runs.stands stands refines.inflow refines.outflow within_ earlier represents⟩

/-! ## Two orders that cross -/

def smallAsk : SubmitOrder := { smallBid with userId := 2, side := sideCode .sell }

theorem smallBid_admissible : Admissible smallBid :=
  ⟨⟨.buy, rfl⟩, ⟨.gtc, rfl⟩, by decide, by decide⟩

theorem smallAsk_admissible : Admissible smallAsk :=
  ⟨⟨.sell, rfl⟩, ⟨.gtc, rfl⟩, by decide, by decide⟩

def submission (order : SubmitOrder) (admissible : Admissible order) : GatewayRequest :=
  ⟨.submitOrder order, Inbound.noConfusion, fun _ same => Inbound.submitOrder.inj same ▸ admissible⟩

def tenTicks : CppSettings := ⟨⟨10, 100, by decide⟩, by decide⟩

/-- The reply to the first append is lost, and later, with the first record trimmed, the worker
dies. -/
def twoFailures : List CppAction :=
  [.gateway 1 (submission smallBid smallBid_admissible), .boot true, .writeCheckpoint .ok, .start,
    .step 5 10 .lost, .retry true, .gateway 6 (submission smallAsk smallAsk_admissible),
    .step 7 10 .ok, .writeCheckpoint .ok, .trimInbound [] 10, .killWorker, .step 8 10 .ok,
    .retry true]

theorem within_of_two {store : Stream (List UInt8)} {first second : Inbound}
    (sent : sentRecords store = [first, second]) (counted : store.entries.length < 2 ^ 64 - 1)
    (framed : ∀ records ∈ [[], [first], [first, second]],
      16 + (Market.fresh.run 10 records).1.tape.live.length * 52 < 2 ^ 32)
    (ids : ∀ entry ∈ store.entries, (ofLex entry.1).1 < 2 ^ 64 ∧ (ofLex entry.1).2 < 2 ^ 64) :
    Within tenTicks store := by
  refine ⟨counted, fun count => ?_, ids⟩
  rw [sent]
  match count with
  | 0 => exact framed [] (by simp)
  | 1 => exact framed [first] (by simp)
  | more + 2 =>
      rw [List.take_of_length_le (Nat.le_add_left 2 more)]
      exact framed [first, second] (by simp)

theorem twoFailures_within :
    Within tenTicks (CppSystem.start.run tenTicks twoFailures).redis.inbound.history :=
  have submitted : sentRecords (CppSystem.start.run tenTicks twoFailures).redis.inbound.history =
      [.submitOrder smallBid, .submitOrder smallAsk] := by decide +kernel
  within_of_two submitted (by decide +kernel) (by decide +kernel) (by decide +kernel)

theorem twoFailures_exactly_once :
    ∃ sent answers count matcher,
      Carries Inbound.wire? (CppSystem.start.run tenTicks twoFailures).redis.inbound.history sent ∧
      Carries answerWire (CppSystem.start.run tenTicks twoFailures).redis.outbound.history answers ∧
      count ≤ sent.entries.length ∧
      (NaiveMatcher.new 1 10).applyAll (sent.records.take count) = .ok (matcher, answers.records) ∧
      (∀ live, (CppSystem.start.run tenTicks twoFailures).process.matcher? = some live →
        live.worker.isSome →
        live.Stands (CppSystem.start.run tenTicks twoFailures).redis count matcher.snapshot) ∧
      ((CppSystem.start.run tenTicks twoFailures).redis.Stranded →
        CppMatcher.recover tenTicks (CppSystem.start.run tenTicks twoFailures).redis =
          .error .refused) ∧
      (¬ (CppSystem.start.run tenTicks twoFailures).redis.Stranded → ∃ recovered,
        CppMatcher.recover tenTicks (CppSystem.start.run tenTicks twoFailures).redis =
          .ok recovered ∧
        recovered.Stands (CppSystem.start.run tenTicks twoFailures).redis count matcher.snapshot) ∧
      (∀ entry ∈ (CppSystem.start.run tenTicks twoFailures).redis.inbound.history.entries.drop count,
        entry ∈ (CppSystem.start.run tenTicks twoFailures).redis.inbound.entries) ∧
      ∀ later, (CppSystem.start.run tenTicks twoFailures).redis.Grows
        (CppSystem.start.run tenTicks (twoFailures ++ later)).redis :=
  deployment_is_exactly_once tenTicks twoFailures twoFailures_within (by decide +kernel)

/-- The worker dies after the first checkpoint of a new process, and `start` puts an empty one in its
place. -/
def emptyWorker : List CppAction :=
  [.gateway 1 (submission smallBid smallBid_admissible), .boot true, .writeCheckpoint .ok, .start,
    .step 5 10 .ok, .crash, .boot true, .writeCheckpoint .ok, .killWorker, .start,
    .gateway 6 (submission smallAsk smallAsk_admissible), .step 7 10 .ok]

/-- The empty worker accepts the ask under the bid's order id and lets it rest, as no matcher that
had seen the bid does. -/
theorem emptyWorker_not_exactly_once :
    ¬ ∃ sent answers count matcher,
      Carries Inbound.wire? (CppSystem.start.run tenTicks emptyWorker).redis.inbound.history sent ∧
      Carries answerWire (CppSystem.start.run tenTicks emptyWorker).redis.outbound.history answers ∧
      (NaiveMatcher.new 1 10).applyAll (sent.records.take count) =
        .ok (matcher, answers.records) := by
  intro found
  obtain ⟨sent, answers, count, matcher, inbound, outbound, applied⟩ := found
  have length : answers.records.length = 2 := by
    rw [Stream.length_records, ← outbound.length_eq]
    decide +kernel
  obtain ⟨naive, finished, -⟩ := NaiveMatcher.fresh_run 10 (sent.records.take count)
  have same := (Prod.mk.inj (Except.ok.inj (applied.symm.trans finished))).2
  have submitted : sentRecords (CppSystem.start.run tenTicks emptyWorker).redis.inbound.history =
      [.submitOrder smallBid, .submitOrder smallAsk] := by decide +kernel
  rw [same, ← sentRecords_eq inbound, submitted] at length
  match count with
  | 0 => exact absurd length (by decide +kernel)
  | 1 => exact absurd length (by decide +kernel)
  | more + 2 =>
      rw [List.take_of_length_le (Nat.le_add_left 2 more)] at length
      exact absurd length (by decide +kernel)

end QuantArena.Matcher
