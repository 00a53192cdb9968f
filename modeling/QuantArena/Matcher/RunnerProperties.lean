import QuantArena.Matcher.Runner
import QuantArena.Matcher.SnapshotProperties

/-! Whatever happens to the process and to its commands, the outbound stream holds the
market's answer to a prefix of the inbound stream, and recovery finds that prefix. -/

set_option autoImplicit false

namespace QuantArena.Matcher

open Foundations Contracts Exchange

/-! ## Anchors -/

theorem countP_fills (taker : LiveOrder) (trades : List (PriceTime.Trade Int Int Ticket)) :
    (trades.map fun trade => Outbound.fill (Market.fillOf taker trade)).countP isAnchor = 0 := by
  rw [List.countP_eq_zero]
  intro record member
  obtain ⟨trade, -, rfl⟩ := List.mem_map.mp member
  exact Bool.false_ne_true

theorem countP_expired (orders : List LiveOrder) :
    (orders.map fun order => Outbound.orderCancelled
      (Market.cancellation order.ticket.createdAtNs .iocExpired order)).countP isAnchor = 0 := by
  rw [List.countP_eq_zero]
  intro record member
  obtain ⟨order, -, rfl⟩ := List.mem_map.mp member
  simp [isAnchor, Market.cancellation]

/-- Every record the gateway writes is answered with exactly one anchor. -/
theorem apply_anchors (cash : Int) (market : Market) {record : Inbound} (written : record ≠ .other) :
    (market.apply cash record).2.countP isAnchor = 1 := by
  cases record with
  | submitOrder order =>
      simp only [Market.apply, Market.submit]
      split
      · rfl
      · simp only [List.countP_cons, List.countP_append, countP_fills, countP_expired]
        rfl
  | cancelOrder request =>
      simp only [Market.apply, Market.cancel]
      split <;> rfl
  | createAccount create => rfl
  | creditCash credit => rfl
  | configureReplay replay => rfl
  | other => exact absurd rfl written

theorem run_anchors (cash : Int) (market : Market) {records : List Inbound}
    (written : ∀ record ∈ records, record ≠ .other) :
    (market.run cash records).2.countP isAnchor = records.length := by
  induction records generalizing market with
  | nil => rfl
  | cons record rest ih =>
      obtain ⟨first, later⟩ := List.forall_mem_cons.mp written
      have whole : (market.run cash (record :: rest)).2 = (market.apply cash record).2 ++
          ((market.apply cash record).1.run cash rest).2 := rfl
      rw [whole, List.countP_append, apply_anchors cash market first, ih _ later,
        List.length_cons, Nat.add_comm]

/-! ## The loops of recovery -/

variable {settings : Settings}

theorem foldl_anchors (batch : List (StreamId × Outbound)) (found : Nat × StreamId) :
    batch.foldl (fun found item => (found.1 + (isAnchor item.2).toNat, item.1)) found =
      (found.1 + (batch.map (·.2)).countP isAnchor, Stream.reached batch found.2) := by
  induction batch generalizing found with
  | nil => rfl
  | cons item rest ih =>
      rw [List.foldl_cons, ih, List.map_cons, List.countP_cons]
      refine Prod.ext ?_ ?_
      · cases isAnchor item.2
        · rfl
        · simp only [Bool.toNat_true, if_true]
          omega
      · simp only [Stream.reached, List.getLast?_cons]
        cases rest.getLast? <;> rfl

theorem countAnchorsAfter_ok (settings : Settings) (stream : Stream Outbound) (rounds : Nat) :
    ∀ (seen anchors : Nat), seen ≤ stream.entries.length →
      stream.entries.length < seen + rounds →
      countAnchorsAfter settings stream rounds (stream.position seen) anchors =
        .ok (anchors + (stream.records.drop seen).countP isAnchor, stream.lastId) := by
  induction rounds with
  | zero =>
      intro seen anchors within enough
      omega
  | succ rounds ih =>
      intro seen anchors within enough
      have batch := stream.read_position seen settings.batchSize
      cases taken : (stream.entries.drop seen).take settings.batchSize with
      | nil =>
          have done : stream.entries.drop seen = [] :=
            (List.take_eq_nil_iff.mp taken).resolve_left settings.reads.ne'
          have all : seen = stream.entries.length :=
            le_antisymm within (List.drop_eq_nil_iff.mp done)
          have nothing : stream.records.drop seen = [] := by
            rw [Stream.records, ← List.map_drop, done, List.map_nil]
          rw [countAnchorsAfter, batch, taken, nothing, all, stream.position_length]
          rfl
      | cons item rest =>
          have front : item :: rest <+: stream.entries.drop seen := taken ▸ List.take_prefix _ _
          have moved := stream.position_add front within
          have longer : seen + (item :: rest).length ≤ stream.entries.length := by
            have fits := front.length_le
            rw [List.length_drop] at fits
            omega
          obtain ⟨later, split⟩ := front
          have counted : (stream.records.drop seen).countP isAnchor =
              ((item :: rest).map (·.2)).countP isAnchor +
                (stream.records.drop (seen + (item :: rest).length)).countP isAnchor := by
            rw [Stream.records, ← List.map_drop, ← List.map_drop, ← List.drop_drop, ← split,
              List.drop_left' rfl, List.map_append, List.countP_append]
          rw [countAnchorsAfter, batch, taken]
          simp only [foldl_anchors]
          rw [← moved, ih _ _ longer (by simp only [List.length_cons]; omega), counted, Nat.add_assoc]

variable {matcher : NaiveMatcher} {market : Market}

/-- One batch of the replay: as much of it as is still to be replayed. -/
theorem replayBatch_ok (alreadyAnswered : Nat) (batch : List (StreamId × Inbound)) :
    ∀ {matcher : NaiveMatcher} {market : Market} (lastId : StreamId) (replayed : Nat),
      matcher.Represents market → market.Valid →
      ∃ after, replayBatch alreadyAnswered batch matcher lastId replayed = .ok (after,
          Stream.reached (batch.take (alreadyAnswered - replayed)) lastId,
          replayed + (batch.take (alreadyAnswered - replayed)).length) ∧
        after.initialCashTicks = matcher.initialCashTicks ∧
        after.Represents (market.run matcher.initialCashTicks
          ((batch.take (alreadyAnswered - replayed)).map (·.2))).1 := by
  induction batch with
  | nil =>
      intro matcher market lastId replayed represents valid
      rw [List.take_nil]
      exact ⟨matcher, rfl, rfl, represents⟩
  | cons item rest ih =>
      intro matcher market lastId replayed represents valid
      by_cases done : replayed ≥ alreadyAnswered
      · rw [Nat.sub_eq_zero_of_le done, List.take_zero]
        refine ⟨matcher, ?_, rfl, represents⟩
        rw [replayBatch, if_pos done]
        rfl
      · obtain ⟨middle, applied, middleRepresents, cash⟩ :=
          NaiveMatcher.apply_ok represents valid item.2
        obtain ⟨after, finished, afterCash, afterRepresents⟩ := ih item.1 (replayed + 1)
          middleRepresents (Market.apply_valid _ valid item.2)
        obtain ⟨more, left⟩ : ∃ more, alreadyAnswered - replayed = more + 1 :=
          ⟨alreadyAnswered - replayed - 1, by omega⟩
        have fewer : alreadyAnswered - (replayed + 1) = more := by omega
        rw [fewer] at finished afterRepresents
        rw [left, List.take_succ_cons]
        refine ⟨after, ?_, afterCash.trans cash, ?_⟩
        · rw [replayBatch, if_neg done]
          simp only [applied, Fault.ok_bind, finished, List.length_cons]
          have place : Stream.reached (item :: rest.take more) lastId =
              Stream.reached (rest.take more) item.1 := by
            rw [Stream.reached, List.getLast?_cons, Stream.reached]
            cases (rest.take more).getLast? <;> rfl
          rw [place, Nat.add_assoc, Nat.add_comm 1]
        · rw [cash] at afterRepresents
          exact afterRepresents

/-- The replay stops after exactly the answered records. -/
theorem replay_ok (settings : Settings) (stream : Stream Inbound) (alreadyAnswered : Nat)
    (rounds : Nat) :
    ∀ {matcher : NaiveMatcher} {market : Market} (seen replayed : Nat),
      matcher.Represents market → market.Valid → replayed ≤ alreadyAnswered →
      seen + (alreadyAnswered - replayed) ≤ stream.entries.length →
      alreadyAnswered - replayed < rounds →
      ∃ after, replay settings stream alreadyAnswered rounds matcher (stream.position seen)
          replayed = .ok (after, stream.position (seen + (alreadyAnswered - replayed))) ∧
        after.initialCashTicks = matcher.initialCashTicks ∧
        after.Represents (market.run matcher.initialCashTicks
          ((stream.records.drop seen).take (alreadyAnswered - replayed))).1 := by
  induction rounds with
  | zero =>
      intro matcher market seen replayed represents valid started within enough
      omega
  | succ rounds ih =>
      intro matcher market seen replayed represents valid started within enough
      by_cases done : replayed < alreadyAnswered
      · have batch := stream.read_position seen settings.batchSize
        cases taken : (stream.entries.drop seen).take settings.batchSize with
        | nil =>
            have exhausted : stream.entries.drop seen = [] :=
              (List.take_eq_nil_iff.mp taken).resolve_left settings.reads.ne'
            have short := List.drop_eq_nil_iff.mp exhausted
            omega
        | cons item rest =>
            obtain ⟨middle, read, middleCash, middleRepresents⟩ := replayBatch_ok alreadyAnswered
              (item :: rest) (stream.position seen) replayed represents valid
            have some_left : 0 < alreadyAnswered - replayed := by omega
            have part : (item :: rest).take (alreadyAnswered - replayed) <+:
                stream.entries.drop seen :=
              (List.take_prefix _ _).trans (taken ▸ List.take_prefix _ _)
            have atMost := List.length_take_le (alreadyAnswered - replayed) (item :: rest)
            have atLeast : 0 < ((item :: rest).take (alreadyAnswered - replayed)).length := by
              rw [List.length_take, List.length_cons]
              omega
            generalize (item :: rest).take (alreadyAnswered - replayed) = applied at *
            have moved := stream.position_add part (by omega)
            have records : (stream.records.drop seen).take (alreadyAnswered - replayed) =
                applied.map (·.2) ++ (stream.records.drop (seen + applied.length)).take
                  (alreadyAnswered - (replayed + applied.length)) := by
              have whole : alreadyAnswered - replayed =
                  applied.length + (alreadyAnswered - (replayed + applied.length)) := by omega
              have first := List.prefix_iff_eq_take.mp part
              rw [whole, List.take_add, Stream.records, ← List.map_drop, ← List.map_drop,
                ← List.map_take, ← first, ← List.map_drop, List.drop_drop]
            have rest_ := ih (seen + applied.length) (replayed + applied.length)
              middleRepresents (Market.run_valid _ valid _) (by omega) (by omega) (by omega)
            obtain ⟨after, finished, afterCash, afterRepresents⟩ := rest_
            refine ⟨after, ?_, afterCash.trans middleCash, ?_⟩
            · rw [replay, if_pos done, batch, taken]
              simp only [read, Fault.ok_bind]
              rw [← moved, finished]
              congr 3
              omega
            · rw [records, Market.run_append]
              rwa [middleCash] at afterRepresents
      · have none : alreadyAnswered - replayed = 0 := by omega
        rw [none, List.take_zero, Nat.add_zero]
        refine ⟨matcher, ?_, rfl, represents⟩
        rw [replay, if_neg done]
        rfl

/-! ## The invariant -/

/-- What an uninterrupted matcher makes of the first inbound records. -/
def answered (settings : Settings) (inbound : Stream Inbound) (count : Nat) :
    Market × List Outbound :=
  Market.fresh.run settings.initialCashTicks (inbound.records.take count)

theorem answered_valid (settings : Settings) (inbound : Stream Inbound) (count : Nat) :
    (answered settings inbound count).1.Valid :=
  Market.run_valid _ Market.fresh_valid _

theorem answered_add (settings : Settings) (inbound : Stream Inbound) (count more : Nat) :
    answered settings inbound (count + more) =
      (((answered settings inbound count).1.run settings.initialCashTicks
          ((inbound.records.drop count).take more)).1,
        (answered settings inbound count).2 ++ ((answered settings inbound count).1.run
          settings.initialCashTicks ((inbound.records.drop count).take more)).2) := by
  rw [answered, List.take_add, Market.run_append]
  rfl

theorem answered_grows {shorter longer : Stream Inbound}
    (grows : shorter.entries <+: longer.entries) {count : Nat}
    (within : count ≤ shorter.entries.length) :
    answered settings longer count = answered settings shorter count := by
  obtain ⟨more, whole⟩ := grows
  rw [answered, answered, Stream.records, Stream.records, ← whole, List.map_append,
    List.take_append_of_le_length (by simpa using within)]

/-- A checkpoint that describes the moment after the first `seen` records. -/
structure Checkpoint.Describes (saved : Checkpoint) (settings : Settings) (redis : Redis)
    (seen : Nat) : Prop where
  inbound : saved.inbound = redis.inbound.position seen
  outbound : saved.outbound =
    redis.outbound.position (answered settings redis.inbound seen).2.length
  state : ∃ matcher : NaiveMatcher, matcher.Represents (answered settings redis.inbound seen).1 ∧
    matcher.snapshot = .ok saved.state

/-- A runner that has answered the first `count` records. -/
structure Runner.Stands (runner : Runner) (settings : Settings) (redis : Redis) (count : Nat) :
    Prop where
  represents : runner.matcher.Represents (answered settings redis.inbound count).1
  cash : runner.matcher.initialCashTicks = settings.initialCashTicks
  inbound : runner.lastInboundId = redis.inbound.position count
  outbound : runner.lastOutboundId = redis.outbound.lastId

/-- The outbound stream answers the first `count` inbound records, and nothing more. -/
structure Redis.Answers (redis : Redis) (settings : Settings) (count : Nat) : Prop where
  within : count ≤ redis.inbound.entries.length
  written : ∀ record ∈ redis.inbound.records, record ≠ .other
  outbound : redis.outbound.records = (answered settings redis.inbound count).2
  checkpoint : ∀ saved, redis.checkpoint = some saved →
    ∃ seen ≤ count, saved.Describes settings redis seen

theorem start_answers (settings : Settings) : System.start.redis.Answers settings 0 where
  within := le_rfl
  written record member := by simp [System.start, Stream.empty, Stream.records] at member
  outbound := rfl
  checkpoint saved found := by cases found

variable {redis : Redis} {count : Nat}

/-- Where `recover` starts: a matcher of some earlier moment, at that moment's positions. -/
theorem resume_ok (answers : redis.Answers settings count) :
    ∃ seen ≤ count, ∃ matcher : NaiveMatcher, resume settings redis.checkpoint = .ok (matcher,
        redis.inbound.position seen,
        redis.outbound.position (answered settings redis.inbound seen).2.length) ∧
      matcher.initialCashTicks = settings.initialCashTicks ∧
      matcher.Represents (answered settings redis.inbound seen).1 := by
  cases checkpoint : redis.checkpoint with
  | none =>
      refine ⟨0, Nat.zero_le _, .new 1 settings.initialCashTicks, rfl, rfl, ?_⟩
      exact NaiveMatcher.new_represents 1 settings.initialCashTicks
  | some saved =>
      obtain ⟨seen, earlier, describes⟩ := answers.checkpoint saved checkpoint
      obtain ⟨matcher, represents, taken⟩ := describes.state
      obtain ⟨restored, loaded, cash, again⟩ := NaiveMatcher.restore_ok represents
        (answered_valid settings redis.inbound seen) taken settings.initialCashTicks
      refine ⟨seen, earlier, restored, ?_, cash, again⟩
      simp only [resume, loaded, Fault.ok_bind, describes.inbound, describes.outbound]

/-- Recovery always succeeds, and stands where the outbound stream ends. -/
theorem recover_ok (answers : redis.Answers settings count) :
    ∃ runner, recover settings redis = .ok runner ∧ runner.Stands settings redis count := by
  obtain ⟨seen, earlier, matcher, resumed, cash, represents⟩ := resume_ok answers
  have within := answers.within
  obtain ⟨more, split⟩ := Nat.exists_eq_add_of_le earlier
  have whole := answered_add settings redis.inbound seen more
  have outbound := answers.outbound
  rw [split, whole] at outbound
  have length : (answered settings redis.inbound seen).2.length ≤ redis.outbound.entries.length := by
    rw [← Stream.length_records, outbound]
    simp
  have tail : redis.outbound.records.drop (answered settings redis.inbound seen).2.length =
      ((answered settings redis.inbound seen).1.run settings.initialCashTicks
        ((redis.inbound.records.drop seen).take more)).2 := by
    rw [outbound]
    exact List.drop_left' rfl
  have anchors : (redis.outbound.records.drop
      (answered settings redis.inbound seen).2.length).countP isAnchor = more := by
    rw [tail, run_anchors]
    · rw [List.length_take, List.length_drop, Stream.length_records]
      omega
    · intro record member
      exact answers.written record (List.mem_of_mem_drop (List.mem_of_mem_take member))
  have counted := countAnchorsAfter_ok settings redis.outbound
    (redis.outbound.entries.length + 1) _ 0 length (by omega)
  rw [anchors, Nat.zero_add] at counted
  obtain ⟨after, finished, afterCash, afterRepresents⟩ := replay_ok settings redis.inbound
    more (redis.inbound.entries.length + 1) seen 0 represents
    (answered_valid settings redis.inbound seen) (Nat.zero_le _) (by omega) (by omega)
  rw [cash, Nat.sub_zero] at afterRepresents
  rw [Nat.sub_zero] at finished
  refine ⟨⟨after, redis.inbound.position (seen + more), redis.outbound.lastId⟩, ?_, ?_⟩
  · rw [recover, resumed]
    simp only [Fault.ok_bind, counted, finished]
  · rw [split]
    refine ⟨?_, afterCash.trans cash, rfl, rfl⟩
    rw [whole]
    exact afterRepresents

/-! ## One action -/

/-- A longer inbound stream leaves all places and answers as they are. -/
theorem Redis.Answers.gateway (answers : redis.Answers settings count) (now : Nat)
    (record : GatewayRecord) :
    Redis.Answers { redis with inbound := redis.inbound.append now record.1 } settings count := by
  have grows := redis.inbound.entries_append now record.1
  have same : ∀ seen ≤ count, answered settings (redis.inbound.append now record.1) seen =
      answered settings redis.inbound seen := fun seen earlier =>
    answered_grows grows (le_trans earlier answers.within)
  refine ⟨le_trans answers.within grows.length_le, ?_, ?_, ?_⟩
  · intro written member
    simp only [Stream.records_append, List.mem_append, List.mem_singleton] at member
    cases member with
    | inl old => exact answers.written written old
    | inr new => exact new ▸ record.2
  · rw [same count le_rfl]
    exact answers.outbound
  · intro saved found
    obtain ⟨seen, earlier, describes⟩ := answers.checkpoint saved found
    refine ⟨seen, earlier, ?_, ?_, ?_⟩
    · rw [Stream.position_grows grows (le_trans earlier answers.within)]
      exact describes.inbound
    · simp only [same seen earlier]
      exact describes.outbound
    · simp only [same seen earlier]
      exact describes.state

theorem Runner.Stands.gateway {runner : Runner} (stands : runner.Stands settings redis count)
    (within : count ≤ redis.inbound.entries.length) (now : Nat) (record : Inbound) :
    runner.Stands settings { redis with inbound := redis.inbound.append now record } count := by
  have grows := redis.inbound.entries_append now record
  refine ⟨?_, stands.cash, ?_, stands.outbound⟩
  · simp only [answered_grows grows within]
    exact stands.represents
  · rw [Stream.position_grows grows within]
    exact stands.inbound

/-- The outputs of the next records are appended: older checkpoints keep their place. -/
theorem Redis.Answers.appended (answers : redis.Answers settings count) {more : Nat}
    (within : count + more ≤ redis.inbound.entries.length) (now : Nat) {outputs : List Outbound}
    (outputsEq : outputs = ((answered settings redis.inbound count).1.run
      settings.initialCashTicks ((redis.inbound.records.drop count).take more)).2) :
    Redis.Answers { redis with outbound := redis.outbound.appendAll now outputs } settings
      (count + more) := by
  have grows := redis.outbound.entries_appendAll now outputs
  refine ⟨within, answers.written, ?_, ?_⟩
  · simp only [Stream.records_appendAll, answered_add, answers.outbound, outputsEq]
  · intro saved found
    obtain ⟨seen, earlier, describes⟩ := answers.checkpoint saved found
    refine ⟨seen, le_trans earlier (Nat.le_add_right _ _), describes.inbound, ?_, describes.state⟩
    have length : (answered settings redis.inbound seen).2.length ≤
        redis.outbound.entries.length := by
      rw [← Stream.length_records, answers.outbound]
      obtain ⟨later, split⟩ := Nat.exists_eq_add_of_le earlier
      rw [split, answered_add]
      simp
    rw [Stream.position_grows grows length]
    exact describes.outbound

/-- A step answers a batch in full, or leaves the process to recover. -/
theorem step_answers (answers : redis.Answers settings count) {runner : Runner}
    (stands : runner.Stands settings redis count) (now limit : Nat) (reply : Reply) :
    ∃ later ≥ count, (step redis runner now limit reply).1.Answers settings later ∧
      ∀ next, (step redis runner now limit reply).2 = some next →
        next.Stands settings (step redis runner now limit reply).1 later := by
  have batch := redis.inbound.read_position count limit
  rw [← stands.inbound] at batch
  unfold step
  rw [batch]
  cases taken : (redis.inbound.entries.drop count).take limit with
  | nil =>
      refine ⟨count, le_rfl, answers, ?_⟩
      intro next same
      cases same
      exact stands
  | cons item rest =>
      have front : item :: rest <+: redis.inbound.entries.drop count := taken ▸ List.take_prefix _ _
      have fits := front.length_le
      rw [List.length_drop] at fits
      have longer : count + (item :: rest).length ≤ redis.inbound.entries.length := by
        have within := answers.within
        omega
      have records : (item :: rest).map (·.2) =
          (redis.inbound.records.drop count).take (item :: rest).length := by
        rw [Stream.records, ← List.map_drop, ← List.map_take,
          ← List.prefix_iff_eq_take.mp front]
      obtain ⟨matcher, applied, represents, cash⟩ := NaiveMatcher.applyAll_ok stands.represents
        (answered_valid settings redis.inbound count) ((item :: rest).map (·.2))
      rw [records, stands.cash] at applied represents
      have moved := redis.inbound.position_add front answers.within
      rw [← stands.inbound] at moved
      have reached : matcher.Represents
          (answered settings redis.inbound (count + (item :: rest).length)).1 := by
        rw [answered_add]
        exact represents
      have appended := answers.appended longer now rfl
      simp only [records, applied]
      generalize outputsEq : ((answered settings redis.inbound count).1.run
        settings.initialCashTicks
        ((redis.inbound.records.drop count).take (item :: rest).length)).2 = outputs at *
      by_cases silent : outputs = []
      · have same : redis.outbound.appendAll now outputs = redis.outbound := by
          rw [silent]
          rfl
        rw [if_pos silent]
        rw [same] at appended
        refine ⟨count + (item :: rest).length, Nat.le_add_right _ _, appended, ?_⟩
        intro next nextEq
        cases nextEq
        exact ⟨reached, cash.trans stands.cash, moved.symm, stands.outbound⟩
      · rw [if_neg silent]
        cases reply with
        | ok =>
            refine ⟨count + (item :: rest).length, Nat.le_add_right _ _, appended, ?_⟩
            intro next nextEq
            cases nextEq
            exact ⟨reached, cash.trans stands.cash, moved.symm, rfl⟩
        | failed => exact ⟨count, le_rfl, answers, fun next nextEq => by cases nextEq⟩
        | lost =>
            exact ⟨count + (item :: rest).length, Nat.le_add_right _ _, appended,
              fun next nextEq => by cases nextEq⟩

/-- The checkpoint written between two steps describes where the runner stands. -/
theorem writeCheckpoint_answers (answers : redis.Answers settings count) {runner : Runner}
    (stands : runner.Stands settings redis count) (reply : Reply) :
    (writeCheckpoint redis runner reply).1.Answers settings count ∧
      ∀ next, (writeCheckpoint redis runner reply).2 = some next →
        next.Stands settings (writeCheckpoint redis runner reply).1 count := by
  unfold writeCheckpoint
  cases taken : runner.matcher.snapshot with
  | error fault => exact ⟨answers, fun next same => by cases same⟩
  | ok state =>
      have saved : Redis.Answers { redis with
          checkpoint := some ⟨runner.lastInboundId, runner.lastOutboundId, state⟩ } settings
          count := by
        refine ⟨answers.within, answers.written, answers.outbound, ?_⟩
        intro saved found
        cases found
        refine ⟨count, le_rfl, stands.inbound, ?_, runner.matcher, stands.represents, taken⟩
        have whole : (answered settings redis.inbound count).2.length =
            redis.outbound.entries.length := by
          rw [← answers.outbound, Stream.length_records]
        simp only [whole, Stream.position_length]
        exact stands.outbound
      cases reply with
      | ok =>
          refine ⟨saved, ?_⟩
          intro next same
          cases same
          exact ⟨stands.represents, stands.cash, stands.inbound, stands.outbound⟩
      | failed => exact ⟨answers, fun next same => by cases same⟩
      | lost => exact ⟨saved, fun next same => by cases same⟩

/-! ## Runs -/

/-- The system answers the first `count` inbound records, and its runner knows. -/
structure System.Answers (system : System) (settings : Settings) (count : Nat) : Prop where
  redis : system.redis.Answers settings count
  runner : ∀ runner, system.runner = some runner → runner.Stands settings system.redis count

theorem act_answers {system : System} (answers : system.Answers settings count) (action : Action) :
    ∃ later ≥ count, (system.act settings action).Answers settings later := by
  cases action with
  | gateway now record =>
      refine ⟨count, le_rfl, answers.redis.gateway now record, ?_⟩
      intro runner same
      exact (answers.runner runner same).gateway answers.redis.within now record.1
  | step now limit reply =>
      cases runner : system.runner with
      | none =>
          refine ⟨count, le_rfl, ?_⟩
          simp only [System.act, runner]
          exact answers
      | some runner' =>
          obtain ⟨later, more, redis, stands⟩ := step_answers answers.redis
            (answers.runner runner' runner) now limit reply
          refine ⟨later, more, ?_⟩
          simp only [System.act, runner]
          exact ⟨redis, stands⟩
  | writeCheckpoint reply =>
      cases runner : system.runner with
      | none =>
          refine ⟨count, le_rfl, ?_⟩
          simp only [System.act, runner]
          exact answers
      | some runner' =>
          obtain ⟨redis, stands⟩ := writeCheckpoint_answers answers.redis
            (answers.runner runner' runner) reply
          refine ⟨count, le_rfl, ?_⟩
          simp only [System.act, runner]
          exact ⟨redis, stands⟩
  | loseCheckpoint =>
      refine ⟨count, le_rfl, ⟨answers.redis.within, answers.redis.written, answers.redis.outbound,
        fun saved found => by cases found⟩, ?_⟩
      intro runner same
      obtain ⟨represents, cash, inbound, outbound⟩ := answers.runner runner same
      exact ⟨represents, cash, inbound, outbound⟩
  | crash => exact ⟨count, le_rfl, answers.redis, fun runner same => by cases same⟩
  | recover =>
      obtain ⟨runner, recovered, stands⟩ := recover_ok answers.redis
      refine ⟨count, le_rfl, answers.redis, ?_⟩
      intro next same
      simp only [System.act, recovered, Except.toOption, Option.some.injEq] at same
      rw [← same]
      exact stands

theorem run_answers {system : System} (answers : system.Answers settings count)
    (actions : List Action) : ∃ later ≥ count, (system.run settings actions).Answers settings later := by
  induction actions generalizing system count with
  | nil => exact ⟨count, le_rfl, answers⟩
  | cons action rest ih =>
      obtain ⟨middle, more, middleAnswers⟩ := act_answers answers action
      obtain ⟨later, most, laterAnswers⟩ := ih middleAnswers
      exact ⟨later, le_trans more most, laterAnswers⟩

end QuantArena.Matcher
