import QuantArena.Matcher.CppRefinement
import QuantArena.Matcher.Recovery

/-! Whole runs of the C++ deployment, with its two processes dying as they like: the outbound stream
is the naive matcher's answer to a prefix of the inbound one, each record answered once, and no trim
takes what a recovery has still to read. -/

set_option autoImplicit false

namespace QuantArena.Matcher

open Foundations Contracts Exchange Gateway Engine.Cpp

variable {settings : CppSettings} {count : Nat} {redis : Redis} {cpp : CppRedis} {runner : Runner}
  {matcher : CppMatcher} {worker : Worker}

/-! ## What trimming leaves -/

/-- There is something left at the place up to which records have been answered, at the end of the
outbound stream, and where the checkpoint says that a recovery begins. -/
structure CppRedis.Pinned (cpp : CppRedis) (place : StreamId) : Prop where
  inbound : cpp.inbound.Keeps place
  outbound : cpp.outbound.Keeps cpp.outbound.history.lastId
  saved : ∀ saved, cpp.checkpoint = some saved →
    cpp.inbound.Keeps saved.inbound ∧ cpp.outbound.Keeps saved.outbound

namespace CppRedis.Pinned

variable {place : StreamId}

theorem mono (pinned : cpp.Pinned place) {later : StreamId} (le : place ≤ later) :
    cpp.Pinned later := ⟨pinned.inbound.mono le, pinned.outbound, pinned.saved⟩

theorem received (pinned : cpp.Pinned place) (now : Nat) (payload : List UInt8) :
    CppRedis.Pinned { cpp with inbound := cpp.inbound.append now payload } place := by
  have grows := Stream.entries_append cpp.inbound.history now payload
  refine ⟨pinned.inbound.grows rfl grows, pinned.outbound, fun saved found => ?_⟩
  obtain ⟨inbound, outbound⟩ := pinned.saved saved found
  exact ⟨inbound.grows rfl grows, outbound⟩

theorem answered (pinned : cpp.Pinned place) (now : Nat) (payloads : List (List UInt8)) :
    CppRedis.Pinned { cpp with outbound := cpp.outbound.appendAll now payloads } place := by
  have grows := Stream.entries_appendAll cpp.outbound.history now payloads
  have keeps : ∀ {place : StreamId}, cpp.outbound.Keeps place →
      (cpp.outbound.appendAll now payloads).Keeps place := fun keeps => keeps.grows rfl grows
  refine ⟨pinned.inbound, (keeps pinned.outbound).mono (Stream.lastId_mono grows),
    fun saved found => ?_⟩
  obtain ⟨inbound, outbound⟩ := pinned.saved saved found
  exact ⟨inbound, keeps outbound⟩

theorem checkpointed (pinned : cpp.Pinned place) (state : List UInt8) :
    CppRedis.Pinned { cpp with checkpoint := some ⟨place, cpp.outbound.history.lastId, state⟩ }
      place := by
  refine ⟨pinned.inbound, pinned.outbound, fun saved found => ?_⟩
  cases found
  exact ⟨pinned.inbound, pinned.outbound⟩

theorem forgotten (pinned : cpp.Pinned place) :
    CppRedis.Pinned { cpp with checkpoint := none } place :=
  ⟨pinned.inbound, pinned.outbound, fun saved found => by cases found⟩

end CppRedis.Pinned

theorem foldl_min_le (others : List StreamId) (position : StreamId) :
    others.foldl min position ≤ position := by
  induction others generalizing position with
  | nil => exact le_rfl
  | cons other rest ih => exact (ih (min position other)).trans (min_le_left position other)

theorem history_trim (stream : Retained (List UInt8)) (own : Option StreamId)
    (others : List StreamId) (limit : Nat) :
    (CppMatcher.trim stream own others limit).history = stream.history := by
  unfold CppMatcher.trim
  split
  · rfl
  · dsimp only
    split
    · rfl
    · exact Retained.history_trim ..

/-- Trimming keeps a place in the stream that the matcher's own checkpoint has not passed. -/
theorem keeps_trim {stream : Retained (List UInt8)} {own : Option StreamId} {place : StreamId}
    (keeps : stream.Keeps place)
    (present : place = .start ∨ place ∈ stream.history.entries.map (·.1))
    (behind : ∀ position, own = some position → position ≤ place) (others : List StreamId)
    (limit : Nat) : (CppMatcher.trim stream own others limit).Keeps place := by
  unfold CppMatcher.trim
  cases own with
  | none => exact keeps
  | some position =>
      have below : others.foldl min position ≤ place :=
        (foldl_min_le others position).trans (behind position rfl)
      dsimp only
      split
      · exact keeps
      · rename_i later
        cases present with
        | inl start => exact absurd (le_antisymm (start ▸ below) (StreamId.start_le _)) later
        | inr listed => exact keeps.trim listed below limit

theorem CppRedis.Pinned.trimInbound (pinned : cpp.Pinned (redis.inbound.position count))
    (answers : redis.Answers settings.toSettings count)
    (inflow : Inflow cpp.inbound.history redis.inbound) (same : cpp.checkpoint = redis.checkpoint)
    (others : List StreamId) (limit : Nat) :
    CppRedis.Pinned { cpp with
      inbound := CppMatcher.trim cpp.inbound (cpp.checkpoint.map (·.inbound)) others limit }
      (redis.inbound.position count) := by
  refine ⟨keeps_trim pinned.inbound (inflow.carries.present count) ?_ others limit,
    pinned.outbound, ?_⟩
  · intro position own
    obtain ⟨saved, found, rfl⟩ := Option.map_eq_some_iff.mp own
    obtain ⟨seen, earlier, describes⟩ := answers.checkpoint saved (same ▸ found)
    exact describes.inbound ▸ redis.inbound.position_mono earlier
  · intro saved found
    obtain ⟨seen, -, describes⟩ := answers.checkpoint saved (same ▸ found)
    obtain ⟨inbound, outbound⟩ := pinned.saved saved found
    refine ⟨keeps_trim inbound (describes.inbound ▸ inflow.carries.present seen) ?_ others limit,
      outbound⟩
    intro position own
    rw [show cpp.checkpoint = some saved from found] at own
    exact (Option.some.inj own).ge

theorem CppRedis.Pinned.trimOutbound (pinned : cpp.Pinned (redis.inbound.position count))
    (answers : redis.Answers settings.toSettings count)
    (outflow : Carries answerWire cpp.outbound.history redis.outbound)
    (same : cpp.checkpoint = redis.checkpoint) (others : List StreamId) (limit : Nat) :
    CppRedis.Pinned { cpp with
      outbound := CppMatcher.trim cpp.outbound (cpp.checkpoint.map (·.outbound)) others limit }
      (redis.inbound.position count) := by
  have ends : cpp.outbound.history.lastId = redis.outbound.lastId :=
    Stream.reached_congr outflow.ids .start
  have last := outflow.present redis.outbound.entries.length
  rw [Stream.position_length, ← ends] at last
  refine ⟨pinned.inbound, ?_, ?_⟩
  · rw [history_trim]
    refine keeps_trim pinned.outbound last ?_ others limit
    intro position own
    obtain ⟨saved, found, rfl⟩ := Option.map_eq_some_iff.mp own
    obtain ⟨seen, -, describes⟩ := answers.checkpoint saved (same ▸ found)
    rw [describes.outbound, ends]
    exact redis.outbound.position_le_lastId _
  · intro saved found
    obtain ⟨seen, -, describes⟩ := answers.checkpoint saved (same ▸ found)
    obtain ⟨inbound, outbound⟩ := pinned.saved saved found
    refine ⟨inbound,
      keeps_trim outbound (describes.outbound ▸ outflow.present _) ?_ others limit⟩
    intro position own
    rw [show cpp.checkpoint = some saved from found] at own
    exact (Option.some.inj own).ge

/-! ## One cycle -/

/-- What is left of both sides after a call: both have raised, or both go on. -/
inductive Next (settings : CppSettings) : Option CppMatcher → Option Runner → Prop where
  | raised : Next settings none none
  | goes {matcher : CppMatcher} {worker : Worker} {runner : Runner} :
      Runs settings matcher worker runner → Next settings (some matcher) (some runner)

/-- The same call on both sides, which leaves the inbound stream alone. -/
structure Both (settings : CppSettings) (inbound : Stream Inbound) (count : Nat)
    (one : CppRedis × Option CppMatcher) (other : Redis × Option Runner) : Prop where
  inflow : Inflow one.1.inbound.history other.1.inbound
  outflow : Carries answerWire one.1.outbound.history other.1.outbound
  checkpoint : one.1.checkpoint = other.1.checkpoint
  pinned : one.1.Pinned (inbound.position count)
  same : other.1.inbound = inbound
  next : Next settings one.2 other.2

/-- A batch is answered alike. -/
theorem batch_alike (stands : runner.Stands settings.toSettings redis count)
    (answers : redis.Answers settings.toSettings count)
    (inflow : Inflow cpp.inbound.history redis.inbound)
    (within_ : Within settings cpp.inbound.history) (runs : Runs settings matcher worker runner)
    {items : List (StreamId × WireRecord)} {batch : List (StreamId × Inbound)}
    (same : Batch items batch) (front : batch <+: redis.inbound.entries.drop count) :
    ∃ after served market outputs,
      runner.matcher.applyAll (batch.map (·.2)) = .ok (after, outputs) ∧
      CppEngineProcess.applyAll worker (items.map (·.2)) = .ok (served, outputs.map Outbound.wire) ∧
      after.Represents market ∧ CppEngineProcess.Serves served settings market ∧
      ∀ output ∈ outputs, output.wire.Fits := by
  obtain ⟨market, represents, serves⟩ := runs.market
  obtain rfl := represents.unique stands.represents
  have valid := answered_valid settings.toSettings redis.inbound count
  have onWire : ∀ order ∈ (answered settings.toSettings redis.inbound count).1.tape.live,
      LiveOnWire order := inflow.onWire count
  have listed : ∀ entry ∈ batch, entry ∈ redis.inbound.entries := fun entry member =>
    List.mem_of_mem_drop (front.subset member)
  have sendable : ∀ record ∈ batch.map (·.2), Market.Sendable record := by
    intro record member
    obtain ⟨entry, present, rfl⟩ := List.mem_map.mp member
    obtain ⟨payload, -, -, written⟩ := inflow.carries.payload (listed entry present)
    exact sendable_of_written written
  have numbered : ((answered settings.toSettings redis.inbound count).1.run
      settings.initialCashTicks (batch.map (·.2))).1.tape.nextOrderId ≤ 256 ^ 8 := by
    have most := (Market.run_nextOrderId settings.initialCashTicks
      (answered settings.toSettings redis.inbound count).1 (batch.map (·.2))).2
    have fewer : (Market.submissions (batch.map (·.2))).length ≤ batch.length :=
      (List.length_filterMap_le _ _).trans (List.length_map _).le
    have issued := (within_.issued inflow answers.within).1
    have room := (within_.issued inflow (le_refl redis.inbound.entries.length)).2
    have fits := front.length_le
    rw [List.length_drop] at fits
    have within' := answers.within
    omega
  obtain ⟨after, applied, reached, -⟩ := NaiveMatcher.applyAll_ok stands.represents valid
    (batch.map (·.2))
  rw [stands.cash] at applied reached
  obtain ⟨served, answered_, serving⟩ := CppEngineProcess.applyAll_ok serves valid onWire
    same.givens numbered
  exact ⟨after, served, _, _, applied, answered_, reached, serving,
    Market.run_fits settings.cash valid onWire sendable numbered⟩

theorem step_alike (stands : runner.Stands settings.toSettings redis count)
    (answers : redis.Answers settings.toSettings count)
    (inflow : Inflow cpp.inbound.history redis.inbound)
    (outflow : Carries answerWire cpp.outbound.history redis.outbound)
    (saved : cpp.checkpoint = redis.checkpoint) (within_ : Within settings cpp.inbound.history)
    (pinned : cpp.Pinned (redis.inbound.position count))
    (runs : Runs settings matcher worker runner) (now limit : Nat) (reply : Reply) :
    Both settings redis.inbound count (CppMatcher.step cpp matcher now limit reply)
      (step redis runner now limit reply) := by
  obtain ⟨items, read, same⟩ := inflow.read within_ matcher.lastInboundId limit
  have place := redis.inbound.read_position count limit
  rw [← stands.inbound, ← runs.inbound] at place
  have reaches : cpp.inbound.Reaches matcher.lastInboundId := by
    rw [runs.inbound, stands.inbound]
    exact pinned.inbound.reaches
  unfold CppMatcher.step step
  rw [runs.live, readRecords_left reaches, read, ← runs.inbound]
  rw [place] at same ⊢
  have front : (redis.inbound.entries.drop count).take limit <+: redis.inbound.entries.drop count :=
    List.take_prefix _ _
  generalize (redis.inbound.entries.drop count).take limit = batch at same front ⊢
  have ids := same.ids
  obtain ⟨after, served, market, outputs, applied, answered_, represents, serves, fits⟩ :=
    batch_alike stands answers inflow within_ runs same front
  have reached := Stream.reached_congr ids matcher.lastInboundId
  cases same with
  | nil => exact ⟨inflow, outflow, saved, pinned, rfl, .goes runs⟩
  | cons _ _ =>
      simp only [applied, answered_, List.map_eq_nil_iff, reached]
      by_cases silent : outputs = []
      · rw [if_pos silent, if_pos silent]
        exact ⟨inflow, outflow, saved, pinned, rfl,
          .goes ⟨rfl, rfl, runs.outbound, market, represents, serves⟩⟩
      · obtain ⟨payloads, packed, written⟩ := packAll_ok fits
        have grown := outflow.appendAll now written
        rw [if_neg silent, if_neg silent, packed]
        cases reply with
        | ok =>
            exact ⟨inflow, grown, saved, pinned.answered now payloads, rfl,
              .goes ⟨rfl, rfl, Stream.reached_congr grown.ids .start, market, represents, serves⟩⟩
        | failed => exact ⟨inflow, outflow, saved, pinned, rfl, .raised⟩
        | lost => exact ⟨inflow, grown, saved, pinned.answered now payloads, rfl, .raised⟩

theorem writeCheckpoint_alike (stands : runner.Stands settings.toSettings redis count)
    (answers : redis.Answers settings.toSettings count)
    (inflow : Inflow cpp.inbound.history redis.inbound)
    (outflow : Carries answerWire cpp.outbound.history redis.outbound)
    (saved : cpp.checkpoint = redis.checkpoint) (within_ : Within settings cpp.inbound.history)
    (pinned : cpp.Pinned (redis.inbound.position count))
    (runs : Runs settings matcher worker runner) (reply : Reply) :
    Both settings redis.inbound count (CppMatcher.writeCheckpoint cpp matcher reply)
      (writeCheckpoint redis runner reply) := by
  obtain ⟨market, represents, serves⟩ := runs.market
  obtain rfl := represents.unique stands.represents
  have savable := within_.savable inflow answers.within
  have valid := answered_valid settings.toSettings redis.inbound count
  obtain ⟨served, taken, serving⟩ := CppEngineProcess.snapshot_ok serves savable
  have snapshot : runner.matcher.snapshot = .ok
      (marketSnapshot (answered settings.toSettings redis.inbound count).1).layout := by
    rw [represents.snapshot_eq]
    exact (EngineSnapshot.pack_eq_ok (marketSnapshot_ordered valid)).mpr ⟨savable.fits, rfl⟩
  have ends : cpp.outbound.history.lastId = redis.outbound.lastId :=
    Stream.reached_congr outflow.ids .start
  have kept := pinned.checkpointed
    (marketSnapshot (answered settings.toSettings redis.inbound count).1).layout
  rw [ends, ← stands.inbound, ← stands.outbound] at kept
  unfold CppMatcher.writeCheckpoint writeCheckpoint
  rw [runs.live, snapshot]
  simp only [taken, runs.inbound, runs.outbound]
  cases reply with
  | ok => exact ⟨inflow, outflow, rfl, stands.inbound ▸ kept, rfl,
      .goes ⟨rfl, rfl, rfl, _, represents, serving⟩⟩
  | failed => exact ⟨inflow, outflow, saved, pinned, rfl, .raised⟩
  | lost => exact ⟨inflow, outflow, rfl, stands.inbound ▸ kept, rfl, .raised⟩

/-! ## One action -/

/-- The process has a matcher with a worker exactly when the naive one has a runner. -/
inductive Matched (settings : CppSettings) (process : CppProcess) : Option Runner → Prop where
  | idle : (∀ matcher, process.matcher? = some matcher → matcher.worker = none) →
      Matched settings process none
  | live {matcher : CppMatcher} {worker : Worker} {runner : Runner} :
      process.matcher? = some matcher → Runs settings matcher worker runner →
      Matched settings process (some runner)

/-- The C++ deployment beside the naive one. -/
structure Refines (settings : CppSettings) (system : CppSystem) (naive : System) : Prop where
  inflow : Inflow system.redis.inbound.history naive.redis.inbound
  outflow : Carries answerWire system.redis.outbound.history naive.redis.outbound
  checkpoint : system.redis.checkpoint = naive.redis.checkpoint
  answers : ∃ count, naive.Answers settings.toSettings count ∧
    system.redis.Pinned (naive.redis.inbound.position count)
  process : Matched settings system.process naive.runner

theorem start_refines (settings : CppSettings) : Refines settings .start .start where
  inflow := ⟨.nil, fun order member => absurd member List.not_mem_nil⟩
  outflow := .nil
  checkpoint := rfl
  answers := ⟨0, ⟨start_answers _, fun runner same => by cases same⟩,
    Retained.keeps_empty, Retained.keeps_empty, fun saved found => by cases found⟩
  process := .idle fun matcher found => by cases found

variable {system : CppSystem} {naive : System}

/-- The worker has not died when `start` looks at it. -/
def orderly (system : CppSystem) : CppAction → Bool
  | .start =>
      match system.process with
      | .checkpointed matcher => matcher.worker.isSome
      | _ => true
  | _ => true

/-- After a call on both sides, the process carries on with what is left. -/
theorem Refines.called {one : CppRedis × Option CppMatcher}
    {other : Redis × Option Runner} (standing : naive.Answers settings.toSettings count)
    (both : Both settings naive.redis.inbound count one other) {action : Action}
    (acted : naive.act settings.toSettings action = ⟨other.1, other.2⟩) {process : CppProcess}
    (carried : process.matcher? = one.2) :
    Refines settings ⟨one.1, process⟩ (naive.run settings.toSettings [action]) := by
  obtain ⟨later, further, answers⟩ := act_answers standing action
  have whole : naive.run settings.toSettings [action] = ⟨other.1, other.2⟩ := acted
  rw [acted] at answers
  rw [whole]
  have pinned := both.pinned.mono (naive.redis.inbound.position_mono further)
  refine ⟨both.inflow, both.outflow, both.checkpoint, ⟨later, answers, both.same ▸ pinned⟩, ?_⟩
  have next := both.next
  cases left : other.2 with
  | none =>
      rw [left] at next
      generalize one.2 = kept at next carried
      cases next
      exact .idle fun matcher found => by rw [carried] at found; cases found
  | some runner =>
      rw [left] at next
      generalize one.2 = kept at next carried
      cases next with
      | goes runs => exact .live carried runs

theorem Refines.gateway (refines : Refines settings system naive) (now : Nat)
    (request : GatewayRequest) :
    ∃ actions, Refines settings (system.act settings (.gateway now request))
      (naive.run settings.toSettings actions) := by
  cases packed : request.1.wire?.map WireRecord.pack with
  | none =>
      simp only [CppSystem.act, CppSystem.append, packed]
      exact ⟨[], refines⟩
  | some result =>
      cases result with
      | error fault =>
          simp only [CppSystem.act, CppSystem.append, packed]
          exact ⟨[], refines⟩
      | ok payload =>
          simp only [CppSystem.act, CppSystem.append, packed]
          obtain ⟨record, formed, own⟩ := Option.map_eq_some_iff.mp packed
          obtain ⟨count, standing, pinned⟩ := refines.answers
          have grows := naive.redis.inbound.entries_append now request.1
          have answers : System.Answers
              (naive.act settings.toSettings (.gateway now ⟨request.1, request.2.1⟩))
              settings.toSettings count :=
            ⟨standing.redis.gateway now ⟨request.1, request.2.1⟩, fun runner same =>
              (standing.runner runner same).gateway standing.redis.within now request.1⟩
          have place := Stream.position_grows grows standing.redis.within
          refine ⟨[.gateway now ⟨request.1, request.2.1⟩], ⟨refines.inflow.carries.append now
            ⟨record, formed, own⟩, ?_⟩, refines.outflow, refines.checkpoint,
            ⟨count, answers, place ▸ pinned.received now payload⟩, refines.process⟩
          intro order member
          have listed : Inbound.submitOrder order ∈
              (naive.redis.inbound.append now request.1).records := member
          rw [Stream.records_append] at listed
          cases List.mem_append.mp listed with
          | inl old => exact refines.inflow.admissible order old
          | inr new => exact request.2.2 order (List.mem_singleton.mp new).symm

/-- A recovery that is not refused succeeds on both sides. -/
theorem Refines.recovers (refines : Refines settings system naive)
    (within_ : Within settings system.redis.inbound.history) (resumable : system.redis.Resumable) :
    ∃ matcher, CppMatcher.recover settings system.redis = .ok matcher ∧
      ∀ process : CppProcess, process.matcher? = some matcher →
        Refines settings { system with process } (naive.run settings.toSettings [.recover]) := by
  obtain ⟨count, standing, pinned⟩ := refines.answers
  obtain ⟨runner, matcher, worker, recovered, served, runs⟩ := recover_alike standing.redis
    refines.inflow refines.outflow refines.checkpoint within_ resumable
  obtain ⟨later, further, answers⟩ := act_answers standing .recover
  refine ⟨matcher, served, fun process carried => ?_⟩
  have whole : naive.run settings.toSettings [.recover] = ⟨naive.redis, some runner⟩ := by
    simp only [System.run, List.foldl_cons, List.foldl_nil, System.act, recovered, Except.toOption]
  have acted : naive.act settings.toSettings .recover = ⟨naive.redis, some runner⟩ := whole
  rw [acted] at answers
  rw [whole]
  exact ⟨refines.inflow, refines.outflow, refines.checkpoint,
    ⟨later, answers, pinned.mono (naive.redis.inbound.position_mono further)⟩, .live carried runs⟩

/-- Without a runner on either side, nothing is seen of what the process goes through. -/
theorem Refines.unseen (refines : Refines settings system naive) {process : CppProcess}
    (none_ : ∀ matcher, system.process.matcher? = some matcher → matcher.worker = none)
    (idle : ∀ matcher, process.matcher? = some matcher → matcher.worker = none) :
    Refines settings { system with process } naive := by
  refine ⟨refines.inflow, refines.outflow, refines.checkpoint, refines.answers, ?_⟩
  have matched := refines.process
  generalize naive.runner = runner at matched ⊢
  cases matched with
  | idle _ => exact .idle idle
  | live found runs =>
      have dead := none_ _ found
      rw [runs.live] at dead
      cases dead

/-- A matcher whose worker lives has the naive runner beside it. -/
theorem Refines.runs (refines : Refines settings system naive)
    (found : system.process.matcher? = some matcher) (living : matcher.worker = some worker) :
    ∃ runner, naive.runner = some runner ∧ Runs settings matcher worker runner := by
  have matched := refines.process
  generalize naive.runner = runner at matched ⊢
  cases matched with
  | idle none_ =>
      rw [none_ matcher found] at living
      cases living
  | @live other served runner found' runs =>
      cases Option.some.inj (found'.symm.trans found)
      cases Option.some.inj (runs.live.symm.trans living)
      exact ⟨runner, rfl, runs⟩

/-- The process goes down, or its worker does. -/
theorem Refines.crashed (refines : Refines settings system naive) {process : CppProcess}
    (idle : ∀ matcher, process.matcher? = some matcher → matcher.worker = none) :
    Refines settings { system with process } (naive.run settings.toSettings [.crash]) := by
  obtain ⟨count, standing, pinned⟩ := refines.answers
  obtain ⟨later, further, answers⟩ := act_answers standing .crash
  exact ⟨refines.inflow, refines.outflow, refines.checkpoint,
    ⟨later, answers, pinned.mono (naive.redis.inbound.position_mono further)⟩, .idle idle⟩

theorem Refines.step (refines : Refines settings system naive)
    (within_ : Within settings system.redis.inbound.history) (now limit : Nat) (reply : Reply) :
    ∃ actions, Refines settings (system.act settings (.step now limit reply))
      (naive.run settings.toSettings actions) := by
  cases phase : system.process with
  | running matcher =>
      have found : system.process.matcher? = some matcher := by rw [phase]; rfl
      simp only [CppSystem.act, phase]
      cases living : matcher.worker with
      | none =>
          have raised : CppMatcher.step system.redis matcher now limit reply = (system.redis, none) := by
            rw [CppMatcher.step, living]
          rw [raised]
          exact ⟨[], refines.unseen
            (fun other same => by cases Option.some.inj (found.symm.trans same); exact living)
            (fun other same => by cases same)⟩
      | some worker =>
          obtain ⟨runner, running, runs⟩ := refines.runs found living
          obtain ⟨count, standing, pinned⟩ := refines.answers
          have both := step_alike (standing.runner runner running) standing.redis refines.inflow
            refines.outflow refines.checkpoint within_ pinned runs now limit reply
          have acted : naive.act settings.toSettings (.step now limit reply) =
              ⟨(Matcher.step naive.redis runner now limit reply).1,
                (Matcher.step naive.redis runner now limit reply).2⟩ := by
            simp only [System.act, running]
          refine ⟨[.step now limit reply], ?_⟩
          cases kept : CppMatcher.step system.redis matcher now limit reply with
          | mk redis next =>
              rw [kept] at both
              cases next with
              | none => exact Refines.called standing both acted rfl
              | some after => exact Refines.called standing both acted rfl
  | _ =>
      simp only [CppSystem.act, phase]
      exact ⟨[], refines⟩

theorem Refines.writeCheckpoint (refines : Refines settings system naive)
    (within_ : Within settings system.redis.inbound.history) (reply : Reply) {matcher : CppMatcher}
    (found : system.process.matcher? = some matcher) (kept : CppMatcher → CppProcess)
    (lost : CppProcess) (carried : ∀ after, (kept after).matcher? = some after)
    (dropped : lost.matcher? = none) :
    ∃ actions, ∀ redis next, CppMatcher.writeCheckpoint system.redis matcher reply = (redis, next) →
      Refines settings ⟨redis, (next.map kept).getD lost⟩ (naive.run settings.toSettings actions) := by
  cases living : matcher.worker with
  | none =>
      refine ⟨[], fun redis next wrote => ?_⟩
      rw [CppMatcher.writeCheckpoint, living] at wrote
      cases wrote
      exact refines.unseen
        (fun other same => by cases Option.some.inj (found.symm.trans same); exact living)
        (fun other same => by rw [show (Option.map kept none).getD lost = lost from rfl, dropped] at same
                              cases same)
  | some worker =>
      obtain ⟨runner, running, runs⟩ := refines.runs found living
      obtain ⟨count, standing, pinned⟩ := refines.answers
      have both := writeCheckpoint_alike (standing.runner runner running) standing.redis
        refines.inflow refines.outflow refines.checkpoint within_ pinned runs reply
      have acted : naive.act settings.toSettings (.writeCheckpoint reply) =
          ⟨(Matcher.writeCheckpoint naive.redis runner reply).1,
            (Matcher.writeCheckpoint naive.redis runner reply).2⟩ := by
        simp only [System.act, running]
      refine ⟨[.writeCheckpoint reply], fun redis next wrote => ?_⟩
      rw [wrote] at both
      cases next with
      | none => exact Refines.called standing both acted dropped
      | some after => exact Refines.called standing both acted (carried after)

/-- Only what the process does with its matcher is seen, not how far it has come. -/
theorem Refines.moved (refines : Refines settings system naive) {process : CppProcess}
    (same : process.matcher? = system.process.matcher?) :
    Refines settings { system with process } naive := by
  refine ⟨refines.inflow, refines.outflow, refines.checkpoint, refines.answers, ?_⟩
  have matched := refines.process
  generalize naive.runner = runner at matched ⊢
  cases matched with
  | idle none_ => exact .idle fun matcher found => none_ matcher (same.symm.trans found)
  | live found runs => exact .live (same.trans found) runs

/-- A recovery raises, or its matcher is that of the naive side. -/
theorem Refines.recovery (refines : Refines settings system naive)
    (within_ : Within settings system.redis.inbound.history) (survives : Bool) :
    (∃ fault, CppSystem.recover settings system.redis survives = .error fault) ∨
      ∃ matcher, CppSystem.recover settings system.redis survives = .ok matcher ∧
        ∀ process : CppProcess, process.matcher? = some matcher →
          Refines settings { system with process } (naive.run settings.toSettings [.recover]) := by
  by_cases resumable : system.redis.Resumable
  · cases survives with
    | false =>
        refine .inl ⟨.raised "0 bytes read on a total of 4 expected bytes", ?_⟩
        rw [CppSystem.recover, if_neg Bool.false_ne_true, resumePositions_eq_ok resumable]
        rfl
    | true =>
        rw [CppSystem.recover, if_pos rfl]
        exact .inr (refines.recovers within_ resumable)
  · refine .inl ⟨.refused, ?_⟩
    unfold CppSystem.recover CppMatcher.recover
    rw [resumePositions_eq_refused resumable]
    cases survives <;> rfl

theorem Refines.trimmed (refines : Refines settings system naive) (redis : CppRedis)
    (inbound : redis.inbound.history = system.redis.inbound.history)
    (outbound : redis.outbound.history = system.redis.outbound.history)
    (checkpoint : redis.checkpoint = system.redis.checkpoint)
    (pinned : ∀ count, naive.Answers settings.toSettings count →
      system.redis.Pinned (naive.redis.inbound.position count) →
      redis.Pinned (naive.redis.inbound.position count)) :
    Refines settings { system with redis } naive := by
  obtain ⟨count, standing, before⟩ := refines.answers
  exact ⟨inbound ▸ refines.inflow, outbound ▸ refines.outflow,
    checkpoint.trans refines.checkpoint, ⟨count, standing, pinned count standing before⟩,
    refines.process⟩

theorem Refines.act (refines : Refines settings system naive)
    (within_ : Within settings system.redis.inbound.history) {action : CppAction}
    (alive : orderly system action) :
    ∃ actions, Refines settings (system.act settings action)
      (naive.run settings.toSettings actions) := by
  cases action with
  | gateway now request => exact refines.gateway now request
  | boot survives =>
      cases phase : system.process with
      | down =>
          obtain ⟨fault, raised⟩ | ⟨matcher, recovered, next⟩ := refines.recovery within_ survives
          · simp only [CppSystem.act, phase, raised]
            exact ⟨[], refines⟩
          · simp only [CppSystem.act, phase, recovered]
            exact ⟨[.recover], next (.recovered matcher) rfl⟩
      | _ =>
          simp only [CppSystem.act, phase]
          exact ⟨[], refines⟩
  | writeCheckpoint reply =>
      cases phase : system.process with
      | recovered matcher =>
          have found : system.process.matcher? = some matcher := by rw [phase]; rfl
          obtain ⟨actions, next⟩ := refines.writeCheckpoint within_ reply found .checkpointed .down
            (fun _ => rfl) rfl
          refine ⟨actions, ?_⟩
          cases wrote : CppMatcher.writeCheckpoint system.redis matcher reply with
          | mk redis left =>
              simp only [CppSystem.act, phase, wrote]
              cases left <;> exact next redis _ wrote
      | running matcher =>
          have found : system.process.matcher? = some matcher := by rw [phase]; rfl
          obtain ⟨actions, next⟩ := refines.writeCheckpoint within_ reply found .running .failing
            (fun _ => rfl) rfl
          refine ⟨actions, ?_⟩
          cases wrote : CppMatcher.writeCheckpoint system.redis matcher reply with
          | mk redis left =>
              simp only [CppSystem.act, phase, wrote]
              cases left <;> exact next redis _ wrote
      | _ =>
          simp only [CppSystem.act, phase]
          exact ⟨[], refines⟩
  | start =>
      cases phase : system.process with
      | checkpointed matcher =>
          rw [orderly, phase] at alive
          obtain ⟨worker, living⟩ := Option.isSome_iff_exists.mp alive
          have same : matcher.start settings = matcher := by
            rw [CppMatcher.start, living, Option.getD_some, ← living]
          simp only [CppSystem.act, phase, same]
          exact ⟨[], refines.moved (by rw [phase]; rfl)⟩
      | _ =>
          simp only [CppSystem.act, phase]
          exact ⟨[], refines⟩
  | step now limit reply => exact refines.step within_ now limit reply
  | trimInbound others limit =>
      cases phase : system.process with
      | running matcher =>
          simp only [CppSystem.act, phase]
          have next := refines.trimmed { system.redis with
            inbound := CppMatcher.trim _ _ others limit } (history_trim _ _ others limit) rfl rfl
            fun count standing pinned => pinned.trimInbound standing.redis refines.inflow
              refines.checkpoint others limit
          exact ⟨[], phase ▸ next⟩
      | _ =>
          simp only [CppSystem.act, phase]
          exact ⟨[], refines⟩
  | trimOutbound others limit =>
      cases phase : system.process with
      | running matcher =>
          simp only [CppSystem.act, phase]
          have next := refines.trimmed { system.redis with
            outbound := CppMatcher.trim _ _ others limit } rfl (history_trim _ _ others limit) rfl
            fun count standing pinned => pinned.trimOutbound standing.redis refines.outflow
              refines.checkpoint others limit
          exact ⟨[], phase ▸ next⟩
      | _ =>
          simp only [CppSystem.act, phase]
          exact ⟨[], refines⟩
  | retry survives =>
      cases phase : system.process with
      | failing =>
          obtain ⟨fault, raised⟩ | ⟨matcher, recovered, next⟩ := refines.recovery within_ survives
          · have idle : ∀ matcher, system.process.matcher? = some matcher → matcher.worker = none :=
              fun matcher found => by rw [phase] at found; cases found
            simp only [CppSystem.act, phase, raised]
            cases fault with
            | refused => exact ⟨[], refines.unseen idle fun matcher found => by cases found⟩
            | _ => exact ⟨[], refines⟩
          · simp only [CppSystem.act, phase, recovered]
            exact ⟨[.recover], next (.running matcher) rfl⟩
      | _ =>
          simp only [CppSystem.act, phase]
          exact ⟨[], refines⟩
  | killWorker =>
      refine ⟨[.crash], refines.crashed fun matcher found => ?_⟩
      cases phase : system.process with
      | recovered other => rw [phase] at found; cases found; rfl
      | checkpointed other => rw [phase] at found; cases found; rfl
      | running other => rw [phase] at found; cases found; rfl
      | down => rw [phase] at found; cases found
      | failing => rw [phase] at found; cases found
  | crash => exact ⟨[.crash], refines.crashed fun matcher found => by cases found⟩
  | loseCheckpoint =>
      obtain ⟨count, standing, pinned⟩ := refines.answers
      obtain ⟨later, further, answers⟩ := act_answers standing .loseCheckpoint
      have forgotten := pinned.forgotten.mono (naive.redis.inbound.position_mono further)
      exact ⟨[.loseCheckpoint], refines.inflow, refines.outflow, rfl, ⟨later, answers, forgotten⟩,
        refines.process⟩

/-! ## Runs -/

/-- Every orderly run of the C++ deployment is a run of the naive one. -/
theorem Refines.run (refines : Refines settings system naive) {actions : List CppAction}
    (within_ : Always (CppSystem.act settings)
      (fun system => Within settings system.redis.inbound.history)
      system actions)
    (alive : Along (CppSystem.act settings) (orderly · ·) system actions) :
    ∃ naiveActions, Refines settings (system.run settings actions)
      (naive.run settings.toSettings naiveActions) := by
  induction actions generalizing system naive with
  | nil => exact ⟨[], refines⟩
  | cons action rest ih =>
      obtain ⟨first, next⟩ := refines.act (within_ [] _ rfl) alive.1
      obtain ⟨later, last⟩ := ih next
        (fun before after split => within_ (action :: before) after (by rw [split]; rfl)) alive.2
      exact ⟨first ++ later, by rw [System.run_append]; exact last⟩

end QuantArena.Matcher
