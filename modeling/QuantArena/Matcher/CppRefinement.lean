import QuantArena.Checkpointing.CheckpointProperties
import QuantArena.Matcher.CppRecovery

/-! Every run of the C++ deployment is a run of the naive matcher's: the same records on both
streams, the same checkpoint, and a worker of the same market wherever there is one. -/

set_option autoImplicit false

namespace QuantArena.Matcher

open Foundations Contracts Exchange Gateway Engine.Cpp

variable {settings : CppSettings} {store : Stream (List UInt8)} {count : Nat}

/-- A matcher represents one market only. -/
theorem NaiveMatcher.Represents.unique {matcher : NaiveMatcher} {one other : Market}
    (first : matcher.Represents one) (second : matcher.Represents other) : one = other := by
  obtain ⟨⟨nextOrderId, live⟩, indexed⟩ := one
  obtain ⟨⟨nextOrderId', live'⟩, indexed'⟩ := other
  obtain rfl : nextOrderId = nextOrderId' := first.nextOrderId.symm.trans second.nextOrderId
  obtain rfl : live = live' := first.live.symm.trans second.live
  obtain rfl : indexed = indexed' :=
    funext fun name => (first.index.names name).symm.trans (second.index.names name)
  rfl

theorem packAll_ok {outputs : List Outbound} (fits : ∀ output ∈ outputs, output.wire.Fits) :
    ∃ payloads, CppMatcher.packAll (outputs.map Outbound.wire) = .ok payloads ∧
      List.Forall₂ (Written answerWire) payloads outputs := by
  induction outputs with
  | nil => exact ⟨[], rfl, .nil⟩
  | cons output rest ih =>
      obtain ⟨first, later⟩ := List.forall_mem_cons.mp fits
      obtain ⟨payloads, packed, written⟩ := ih later
      refine ⟨packRecord output.wire :: payloads, ?_, .cons ⟨_, rfl, packRecord_ok first⟩ written⟩
      rw [List.map_cons, CppMatcher.packAll, packRecord_ok first]
      simp only [Fault.ok_bind, packed]

/-! ## Where the market stands -/

variable {inbound : Stream Inbound}

theorem Within.issued (inflow : Inflow store inbound) (within_ : Within settings store)
    (earlier : count ≤ inbound.entries.length) :
    (answered settings.toSettings inbound count).1.tape.nextOrderId ≤ count + 1 ∧
      (count : Int) + 1 < 256 ^ 8 := by
  have most := (Market.run_nextOrderId settings.initialCashTicks .fresh
    (inbound.records.take count)).2
  have fewer : (Market.submissions (inbound.records.take count)).length ≤ count :=
    (List.length_filterMap_le _ _).trans (List.length_take_le _ _)
  have start : Market.fresh.tape.nextOrderId = 1 := rfl
  have length := inflow.carries.length_eq
  have counted := within_.counted
  constructor
  · show (Market.fresh.run settings.initialCashTicks (inbound.records.take count)).1.tape.nextOrderId ≤ _
    omega
  · omega

theorem Inflow.onWire (inflow : Inflow store inbound) (count : Nat) :
    ∀ order ∈ (answered settings.toSettings inbound count).1.tape.live, LiveOnWire order := by
  refine fresh_onWire settings.initialCashTicks fun record member => ?_
  obtain ⟨entry, listed, rfl⟩ := List.mem_map.mp (List.mem_of_mem_take member)
  obtain ⟨payload, -, -, written⟩ := inflow.carries.payload listed
  exact Market.onWire_of_sendable (sendable_of_written written)

theorem Within.savable (inflow : Inflow store inbound) (within_ : Within settings store)
    (earlier : count ≤ inbound.entries.length) :
    CppEngineProcess.Savable (answered settings.toSettings inbound count).1 := by
  obtain ⟨issued, room⟩ := within_.issued inflow earlier
  have framed := within_.framed count
  rw [sentRecords_eq inflow.carries] at framed
  have small : 16 + (answered settings.toSettings inbound count).1.tape.live.length * 52 < 2 ^ 32 :=
    framed
  refine ⟨marketSnapshot_fits (answered_valid _ _ _) (inflow.onWire count) (by omega) (by omega), ?_⟩
  unfold Frames.Framed
  rw [CppEngineProcess.length_layout]
  exact small

/-! ## Recovery -/

variable {redis : Redis}

theorem anchors_left (answers : redis.Answers settings.toSettings count) {seen : Nat}
    (earlier : seen ≤ count) :
    (redis.outbound.records.drop
      (answered settings.toSettings redis.inbound seen).2.length).countP isAnchor = count - seen := by
  obtain ⟨more, rfl⟩ := Nat.exists_eq_add_of_le earlier
  have within_ := answers.within
  rw [answers.outbound, answered_add, List.drop_left' rfl, run_anchors]
  · rw [List.length_take, List.length_drop, Stream.length_records]
    omega
  · intro record member
    exact answers.written record (List.mem_of_mem_drop (List.mem_of_mem_take member))

/-- Both sides of a recovery start at the checkpoint's moment. -/
theorem resume_alike (answers : redis.Answers settings.toSettings count)
    (inflow : Inflow store redis.inbound) (within_ : Within settings store) :
    ∃ seen ≤ count, ∃ matcher worker,
      resume settings.toSettings redis.checkpoint = .ok (matcher, redis.inbound.position seen,
        redis.outbound.position (answered settings.toSettings redis.inbound seen).2.length) ∧
      CppMatcher.resume settings redis.checkpoint = .ok (worker, redis.inbound.position seen,
        redis.outbound.position (answered settings.toSettings redis.inbound seen).2.length) ∧
      Alike settings matcher worker (answered settings.toSettings redis.inbound seen).1 := by
  cases checkpoint : redis.checkpoint with
  | none =>
      exact ⟨0, Nat.zero_le _, .new 1 settings.initialCashTicks, .new settings.initialCashTicks, rfl,
        rfl, NaiveMatcher.new_represents 1 settings.initialCashTicks, rfl,
        CppEngineProcess.new_serves settings, answered_valid _ redis.inbound 0, inflow.onWire 0⟩
  | some saved =>
      obtain ⟨seen, earlier, describes⟩ := answers.checkpoint saved checkpoint
      obtain ⟨matcher, represents, taken⟩ := describes.state
      have valid := answered_valid settings.toSettings redis.inbound seen
      have savable := within_.savable inflow (earlier.trans answers.within)
      obtain ⟨restored, loaded, cash, again⟩ := NaiveMatcher.restore_ok represents valid taken
        settings.initialCashTicks
      obtain ⟨worker, reloaded, serves⟩ := CppEngineProcess.restore_ok valid savable
      have state : saved.state =
          (marketSnapshot (answered settings.toSettings redis.inbound seen).1).layout := by
        rw [represents.snapshot_eq] at taken
        exact ((EngineSnapshot.pack_eq_ok (marketSnapshot_ordered valid)).mp taken).2
      refine ⟨seen, earlier, restored, worker, ?_, ?_, again, cash, serves, valid,
        inflow.onWire seen⟩
      · simp only [resume, loaded, Fault.ok_bind, describes.inbound, describes.outbound]
      · rw [CppMatcher.resume, state]
        exact Fault.bind_eq_ok.mpr ⟨worker, reloaded, by rw [describes.inbound, describes.outbound]⟩

/-- Where a process with this checkpoint goes on has not been trimmed. -/
def CppRedis.Resumable (redis : CppRedis) : Prop :=
  redis.inbound.Reaches ((redis.checkpoint.map (·.inbound)).getD .start) ∧
    redis.outbound.Reaches ((redis.checkpoint.map (·.outbound)).getD .start)

theorem resumePositions_eq_ok {cpp : CppRedis} (resumable : cpp.Resumable) :
    CppMatcher.resumePositions cpp = .ok cpp.checkpoint := by
  rw [CppMatcher.resumePositions, Checkpointing.ensureResumable_eq_ok resumable.1, Fault.ok_bind,
    Checkpointing.ensureResumable_eq_ok resumable.2, Fault.ok_bind]

theorem resumePositions_eq_refused {cpp : CppRedis} (behind : ¬ cpp.Resumable) :
    CppMatcher.resumePositions cpp = .error .refused := by
  rw [CppMatcher.resumePositions]
  by_cases first : cpp.inbound.Reaches ((cpp.checkpoint.map (·.inbound)).getD .start)
  · have second := fun reaches => behind ⟨first, reaches⟩
    rw [Checkpointing.ensureResumable_eq_ok first, Fault.ok_bind,
      Checkpointing.ensureResumable_eq_refused second]
    rfl
  · rw [Checkpointing.ensureResumable_eq_refused first]
    rfl

theorem resume_places {saved : Option Checkpoint} {worker : Worker} {place outPlace : StreamId}
    (resumed : CppMatcher.resume settings saved = .ok (worker, place, outPlace)) :
    (saved.map (·.inbound)).getD .start = place ∧
      (saved.map (·.outbound)).getD .start = outPlace := by
  cases saved with
  | none =>
      cases resumed
      exact ⟨rfl, rfl⟩
  | some checkpoint =>
      obtain ⟨restored, -, same⟩ := Fault.bind_eq_ok.mp resumed
      cases same
      exact ⟨rfl, rfl⟩

/-- A worker in the place of a naive runner. -/
structure Runs (settings : CppSettings) (matcher : CppMatcher) (worker : Worker) (runner : Runner) :
    Prop where
  live : matcher.worker = some worker
  inbound : matcher.lastInboundId = runner.lastInboundId
  outbound : matcher.lastOutboundId = runner.lastOutboundId
  market : ∃ market, runner.matcher.Represents market ∧
    CppEngineProcess.Serves worker settings market

theorem recover_alike {cpp : CppRedis} (answers : redis.Answers settings.toSettings count)
    (inflow : Inflow cpp.inbound.history redis.inbound)
    (outflow : Carries answerWire cpp.outbound.history redis.outbound)
    (same : cpp.checkpoint = redis.checkpoint) (within_ : Within settings cpp.inbound.history)
    (resumable : cpp.Resumable) :
    ∃ runner matcher worker, recover settings.toSettings redis = .ok runner ∧
      CppMatcher.recover settings cpp = .ok matcher ∧ Runs settings matcher worker runner := by
  obtain ⟨seen, earlier, matcher, worker, resumed, resumed', alike⟩ :=
    resume_alike answers inflow within_
  obtain ⟨runner, succeeded, -⟩ := recover_ok answers
  have length : (answered settings.toSettings redis.inbound seen).2.length ≤
      redis.outbound.entries.length := by
    obtain ⟨more, rfl⟩ := Nat.exists_eq_add_of_le earlier
    rw [← Stream.length_records, answers.outbound, answered_add, List.length_append]
    omega
  have counted := countAnchorsAfter_ok settings.toSettings redis.outbound
    (redis.outbound.entries.length + 1) _ 0 length (by omega)
  rw [Nat.zero_add, anchors_left answers earlier] at counted
  have resumed_ : CppMatcher.resume settings cpp.checkpoint = _ := same ▸ resumed'
  obtain ⟨inFrom, outFrom⟩ := resume_places resumed_
  have counted' : CppMatcher.countAnchorsAfter settings cpp.outbound.left
      (cpp.outbound.history.entries.length + 1)
      (redis.outbound.position (answered settings.toSettings redis.inbound seen).2.length) 0 =
        .ok (count - seen, redis.outbound.lastId) := by
    rw [countAnchorsAfter_left (outFrom ▸ resumable.2), countAnchorsAfter_alike outflow,
      outflow.length_eq]
    exact counted
  rw [recover, resumed] at succeeded
  simp only [Fault.ok_bind, counted] at succeeded
  obtain ⟨⟨after, place⟩, replayed, final⟩ := Fault.bind_eq_ok.mp succeeded
  cases final
  obtain ⟨issued, -⟩ := within_.issued inflow (earlier.trans answers.within)
  have room : seen + 1 + (count - seen) < 2 ^ 64 := by
    have all := (within_.issued inflow answers.within).2
    omega
  obtain ⟨served, market, replayed', reached⟩ := replay_alike inflow within_ room
    (redis.inbound.entries.length + 1) alike (by push_cast; omega) replayed
  refine ⟨⟨after, place, redis.outbound.lastId⟩, ⟨some served, place, redis.outbound.lastId⟩, served,
    ?_, ?_, rfl, rfl, rfl, market, reached.represents, reached.serves⟩
  · rw [recover, resumed]
    simp only [Fault.ok_bind, counted, replayed]
  · rw [CppMatcher.recover, resumePositions_eq_ok resumable, Fault.ok_bind]
    refine Fault.bind_eq_ok.mpr ⟨_, resumed_, Fault.bind_eq_ok.mpr ⟨_, counted', ?_⟩⟩
    rw [inflow.carries.length_eq]
    exact Fault.bind_eq_ok.mpr ⟨_, (replay_left (inFrom ▸ resumable.1) _ _ _).trans replayed', rfl⟩

end QuantArena.Matcher
