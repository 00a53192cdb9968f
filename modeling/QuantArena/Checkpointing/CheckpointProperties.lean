import QuantArena.Checkpointing.Checkpoint
import QuantArena.Foundations.Run

/-! The resume guard and trimming together: what a process resumes after is still there,
and a reader that trimming asks is never turned away. -/

set_option autoImplicit false

namespace QuantArena.Checkpointing

open Foundations

theorem ensureResumable_eq_ok {α : Type} {stream : Retained α} {afterId : StreamId}
    (reaches : stream.Reaches afterId) : ensureResumable stream afterId = .ok () := by
  rw [ensureResumable, if_neg]
  rintro ⟨removed, behind⟩
  cases reaches with
  | inl whole => exact removed whole
  | inr floor => exact absurd behind (not_lt.mpr floor)

theorem ensureResumable_eq_refused {α : Type} {stream : Retained α} {afterId : StreamId}
    (behind : ¬ stream.Reaches afterId) : ensureResumable stream afterId = .error .refused := by
  obtain ⟨removed, behind⟩ := not_or.mp behind
  rw [ensureResumable, if_pos ⟨removed, not_le.mp behind⟩]

namespace Redis

variable {α : Type} {redis : Redis α} {process stream configHash : String}

/-! ## The guard -/

/-- The guard lets a process through when nothing was removed, or its position has reached what
was kept. -/
theorem ensureResumable_eq_ok {afterId : StreamId} :
    redis.ensureResumable process stream afterId = .ok () ↔
      (redis.stream stream).removed = 0 ∨ (redis.stream stream).floor ≤ afterId := by
  unfold ensureResumable streamBounds
  cases found : redis.streams.get? stream with
  | none =>
      have same : redis.stream stream = .empty := by
        rw [Redis.stream, Dict.getD, found, Option.getD_none]
      simp [same, Retained.empty]
  | some kept =>
      have same : redis.stream stream = kept := by
        rw [Redis.stream, Dict.getD, found, Option.getD_some]
      have length : kept.entries.length = kept.history.entries.length - kept.removed :=
        List.length_drop ..
      have within := kept.within
      have shorter : kept.entries.length < kept.history.entries.length ↔ kept.removed ≠ 0 := by
        omega
      rw [same]
      by_cases untouched : kept.removed = 0
      · simp [gt_iff_lt, shorter, untouched]
      · simp only [gt_iff_lt, shorter, untouched, ne_eq, not_false_eq_true, decide_true,
          not_true_eq_false, if_false, false_or, Retained.floor]
        split
        · rename_i behind
          exact iff_of_false (by simp) (not_le.mpr behind)
        · rename_i reaches
          exact iff_of_true rfl (not_lt.mp reaches)

/-- It looks at nothing but the stream. -/
theorem ensureResumable_iff {afterId : StreamId} :
    redis.ensureResumable process stream afterId = .ok () ↔
      Checkpointing.ensureResumable (redis.stream stream) afterId = .ok () := by
  rw [ensureResumable_eq_ok]
  refine ⟨Checkpointing.ensureResumable_eq_ok, fun passes => ?_⟩
  by_contra behind
  rw [Checkpointing.ensureResumable_eq_refused behind] at passes
  cases passes

theorem ensureAllResumable_eq_ok {checkpoint : Option Checkpoint} {streams : List String} :
    redis.ensureAllResumable process checkpoint streams = .ok () ↔
      ∀ stream ∈ streams,
        redis.ensureResumable process stream (resumePoint checkpoint stream) = .ok () := by
  induction streams with
  | nil => simp [ensureAllResumable]
  | cons stream rest ih =>
      rw [ensureAllResumable, List.forall_mem_cons, ← ih]
      cases redis.ensureResumable process stream (resumePoint checkpoint stream) with
      | error refused => exact iff_of_false (fun same => by cases same) fun both => by cases both.1
      | ok _ => exact (and_iff_right rfl).symm

theorem resumePositions_eq_ok {streams : List String} {checkpoint : Option Checkpoint} :
    redis.resumePositions process streams configHash = .ok checkpoint ↔
      redis.load process configHash = checkpoint ∧ ∀ stream ∈ streams,
        (redis.stream stream).removed = 0 ∨
          (redis.stream stream).floor ≤ resumePoint checkpoint stream := by
  have guarded := @ensureAllResumable_eq_ok α redis process (redis.load process configHash) streams
  simp only [ensureResumable_eq_ok] at guarded
  unfold resumePositions
  cases passed : redis.ensureAllResumable process (redis.load process configHash) streams with
  | error refused =>
      refine iff_of_false (by simp [passed, bind, Except.bind]) ?_
      rintro ⟨rfl, every⟩
      rw [passed] at guarded
      cases guarded.mpr every
  | ok _ =>
      have every := guarded.mp passed
      simp only [passed, bind, Except.bind, Except.ok.injEq]
      constructor
      · rintro rfl
        exact ⟨rfl, every⟩
      · exact And.left

/-- Everything appended after the position a process resumes from is still there. -/
theorem mem_entries_of_resumed {streams : List String} {checkpoint : Option Checkpoint}
    (resumed : redis.resumePositions process streams configHash = .ok checkpoint)
    (reads : stream ∈ streams) {entry : StreamId × α}
    (member : entry ∈ (redis.stream stream).history.entries)
    (later : resumePoint checkpoint stream < entry.1) : entry ∈ (redis.stream stream).entries := by
  obtain ⟨-, every⟩ := resumePositions_eq_ok.mp resumed
  rcases every stream reads with whole | reaches
  · rw [Retained.entries_of_whole whole]
    exact member
  · exact Retained.mem_entries_of_floor reaches member later

/-! ## The history -/

theorem stream_set (redis : Redis α) (name other : String) (stream : Retained α) :
    Redis.stream { redis with streams := redis.streams.set name stream } other =
      if other = name then stream else redis.stream other := by
  simp only [Redis.stream, Dict.getD_set]

/-- The records that a run appends to one stream. -/
def appended (name : String) : List (Action α) → List α
  | [] => []
  | .append stream _ record :: rest =>
      if stream = name then record :: appended name rest else appended name rest
  | _ :: rest => appended name rest

theorem history_trim (redis : Redis α) (trimmed : String) (readers : List String)
    (configHash : String) (count : Nat) (name : String) :
    ((redis.trim trimmed readers configHash count).stream name).history =
      (redis.stream name).history := by
  unfold trim
  split
  · rfl
  · rw [stream_set]
    split
    · rename_i same
      rw [same, Retained.history_trim]
    · rfl

/-- A stream's history is what was appended to it, whatever was trimmed since. -/
theorem history_run (redis : Redis α) (actions : List (Action α)) (name : String) :
    ((redis.run actions).stream name).history.records =
      (redis.stream name).history.records ++ appended name actions := by
  induction actions generalizing redis with
  | nil => simp [run, appended]
  | cons action rest ih =>
      rw [run, List.foldl_cons, ← run, ih]
      cases action with
      | append stream now record =>
          simp only [step, stream_set, appended]
          by_cases same : name = stream
          · subst same
            simp [Retained.append]
          · simp [same, Ne.symm same]
      | trim stream readers configHash count =>
          rw [step, history_trim]
          rfl
      | save process checkpoint => rfl
      | resume process streams configHash => rfl

/-! ## A reader that trimming asks -/

/-- The reader saves ids of entries that never go backwards, and every trim of its streams asks
it. -/
def Tracked (reader : String) (streams : List String) (redis : Redis α) : Action α → Prop
  | .save process checkpoint => process = reader → ∀ stream ∈ streams,
      ∃ position ∈ checkpoint.positions.get? stream,
        position ∈ (redis.stream stream).history.entries.map (·.1) ∧
        ∀ old ∈ redis.checkpoints.get? reader, ∀ before ∈ old.positions.get? stream,
          before ≤ position
  | .trim stream readers _ _ => stream ∈ streams → reader ∈ readers
  | _ => True

instance (reader : String) (streams : List String) (redis : Redis α) :
    (action : Action α) → Decidable (Tracked reader streams redis action)
  | .save process checkpoint => inferInstanceAs (Decidable (process = reader →
      ∀ stream ∈ streams, ∃ position ∈ checkpoint.positions.get? stream,
        position ∈ (redis.stream stream).history.entries.map (·.1) ∧
        ∀ old ∈ redis.checkpoints.get? reader, ∀ before ∈ old.positions.get? stream,
          before ≤ position))
  | .trim stream readers _ _ => inferInstanceAs (Decidable (stream ∈ streams → reader ∈ readers))
  | .append _ _ _ => .isTrue trivial
  | .resume _ _ _ => .isTrue trivial

/-- What the reader has saved of each of its streams is still there, and before it has saved
anything nothing is gone. -/
def Pinned (redis : Redis α) (reader : String) (streams : List String) : Prop :=
  ∀ stream ∈ streams, match redis.checkpoints.get? reader with
    | none => (redis.stream stream).removed = 0
    | some checkpoint => ∃ position, checkpoint.positions.get? stream = some position ∧
        ∃ record, (position, record) ∈ (redis.stream stream).entries

theorem oldestPosition_le {reader : String} {readers : List String} {oldest : Option StreamId}
    {found : StreamId} (asked : redis.oldestPosition stream configHash readers oldest = some (some found)) :
    (∀ before ∈ oldest, found ≤ before) ∧ (reader ∈ readers → ∃ checkpoint position,
      redis.checkpoints.get? reader = some checkpoint ∧
      checkpoint.positions.get? stream = some position ∧ found ≤ position) := by
  induction readers generalizing oldest with
  | nil =>
      cases asked
      exact ⟨fun before same => (Option.some.inj same).le, by simp⟩
  | cons other rest ih =>
      rw [oldestPosition] at asked
      split at asked
      · cases asked
      · rename_i checkpoint saved
        split at asked
        · cases asked
        · split at asked
          · cases asked
          · rename_i position positioned
            obtain ⟨below, others⟩ := ih asked
            have lowest := below _ rfl
            refine ⟨?_, ?_⟩
            · rintro before ⟨⟩
              exact lowest.trans (min_le_left _ _)
            · intro member
              rcases List.mem_cons.mp member with rfl | later
              · refine ⟨checkpoint, position, saved, positioned, lowest.trans ?_⟩
                cases oldest with
                | none => exact le_rfl
                | some before => exact min_le_right _ _
              · exact others later

/-- A trim that asks the reader goes no further than its position. -/
theorem trimPoint_le {reader : String} {readers : List String} {minId : StreamId}
    (asked : reader ∈ readers) (trims : redis.trimPoint stream readers configHash = some minId) :
    ∃ checkpoint position, redis.checkpoints.get? reader = some checkpoint ∧
      checkpoint.positions.get? stream = some position ∧ minId ≤ position := by
  unfold trimPoint at trims
  split at trims
  · rename_i oldest found
    split at trims
    · cases trims
    · cases trims
      exact (oldestPosition_le found).2 asked
  · cases trims

theorem empty_pinned (reader : String) (streams : List String) :
    (empty : Redis α).Pinned reader streams := fun _ _ => rfl

variable {reader : String} {streams : List String}

/-- A stream that has only grown since. -/
theorem Pinned.grow (pinned : redis.Pinned reader streams) {next : Redis α}
    (checkpoints : next.checkpoints = redis.checkpoints)
    (removed : ∀ name, (next.stream name).removed = (redis.stream name).removed)
    (grows : ∀ name, (redis.stream name).entries <+: (next.stream name).entries) :
    next.Pinned reader streams := by
  intro stream reads
  have before := pinned stream reads
  rw [checkpoints, removed]
  cases saved : redis.checkpoints.get? reader with
  | none => simpa only [saved] using before
  | some checkpoint =>
      simp only [saved] at before ⊢
      obtain ⟨position, positioned, record, member⟩ := before
      exact ⟨position, positioned, record, (grows stream).subset member⟩

theorem Pinned.save (pinned : redis.Pinned reader streams) {process : String}
    {checkpoint : Checkpoint} (tracked : redis.Tracked reader streams (.save process checkpoint)) :
    (redis.save process checkpoint).Pinned reader streams := by
  intro stream reads
  have before := pinned stream reads
  by_cases own : process = reader
  · subst own
    obtain ⟨position, positioned, known, forward⟩ := tracked rfl stream reads
    obtain ⟨⟨_, record⟩, member, rfl⟩ := List.mem_map.mp known
    simp only [Redis.save, Dict.get?_set_self]
    refine ⟨_, positioned, record, ?_⟩
    cases saved : redis.checkpoints.get? process with
    | none =>
        rw [saved] at before
        have whole := Retained.entries_of_whole before
        exact whole ▸ member
    | some old =>
        rw [saved] at before
        obtain ⟨last, lastPositioned, lastRecord, kept⟩ := before
        exact Retained.mem_entries_of_le kept member (forward old saved last lastPositioned)
  · have unsaved : (redis.save process checkpoint).checkpoints.get? reader =
        redis.checkpoints.get? reader := Dict.get?_set_of_ne _ _ (Ne.symm own)
    rw [unsaved]
    exact before

theorem Pinned.trim (pinned : redis.Pinned reader streams) {name : String} {readers : List String}
    {configHash : String} (count : Nat) (tracked : name ∈ streams → reader ∈ readers) :
    (redis.trim name readers configHash count).Pinned reader streams := by
  cases trims : redis.trimPoint name readers configHash with
  | none =>
      have untouched : redis.trim name readers configHash count = redis := by
        unfold Redis.trim
        rw [trims]
      rw [untouched]
      exact pinned
  | some minId =>
      have trimmed : redis.trim name readers configHash count = { redis with
          streams := redis.streams.set name ((redis.stream name).trim minId count) } := by
        unfold Redis.trim
        rw [trims]
      intro stream reads
      have before := pinned stream reads
      rw [trimmed, stream_set]
      by_cases same : stream = name
      · subst same
        obtain ⟨checkpoint, position, saved, positioned, above⟩ := trimPoint_le (tracked reads) trims
        rw [if_pos rfl]
        simp only [saved] at before ⊢
        obtain ⟨_, own, record, kept⟩ := before
        obtain rfl := Option.some.inj (positioned.symm.trans own)
        exact ⟨position, positioned, record, Retained.mem_entries_trim kept above count⟩
      · rw [if_neg same]
        exact before

theorem Pinned.step (pinned : redis.Pinned reader streams) {action : Action α}
    (tracked : redis.Tracked reader streams action) : (redis.step action).Pinned reader streams := by
  cases action with
  | append name now record =>
      refine pinned.grow rfl (fun other => ?_) fun other => ?_
      · simp only [Redis.step, stream_set]
        split
        · rename_i same
          rw [same]
          rfl
        · rfl
      · simp only [Redis.step, stream_set]
        split
        · rename_i same
          rw [same]
          exact Retained.entries_append ..
        · exact List.prefix_refl _
  | save process checkpoint => exact pinned.save tracked
  | trim name readers configHash count => exact pinned.trim count tracked
  | resume _ _ _ => exact pinned

/-- A pinned reader is let through, wherever it resumes from its own checkpoint. -/
theorem Pinned.resumes (pinned : redis.Pinned reader streams)
    (usable : ∀ checkpoint ∈ redis.checkpoints.get? reader, checkpoint.configHash = configHash) :
    redis.resumePositions reader streams configHash = .ok (redis.checkpoints.get? reader) := by
  refine resumePositions_eq_ok.mpr ⟨?_, fun stream reads => ?_⟩
  · unfold load
    cases saved : redis.checkpoints.get? reader with
    | none => rfl
    | some checkpoint => exact if_neg (not_not.mpr (usable checkpoint saved))
  · have before := pinned stream reads
    cases saved : redis.checkpoints.get? reader with
    | none =>
        rw [saved] at before
        exact .inl before
    | some checkpoint =>
        rw [saved] at before
        obtain ⟨position, positioned, record, kept⟩ := before
        refine .inr ?_
        rw [resumePoint, Dict.getD, positioned, Option.getD_some]
        exact Retained.floor_le kept

/-- Whenever a process is let through, everything appended after its position is there; and a
reader that every trim of its streams asks is let through under the hash that it saved under. -/
theorem resume_and_trim_are_safe (actions : List (Action α)) :
    (∀ process streams configHash checkpoint,
      (empty.run actions).resumePositions process streams configHash = .ok checkpoint →
      ∀ stream ∈ streams,
        ((empty.run actions).stream stream).history.records = appended stream actions ∧
        ∀ entry ∈ ((empty.run actions).stream stream).history.entries,
          resumePoint checkpoint stream < entry.1 →
            entry ∈ ((empty.run actions).stream stream).entries) ∧
    ∀ reader streams, Along step (Tracked reader streams) empty actions → ∀ configHash,
      (∀ checkpoint ∈ (empty.run actions).checkpoints.get? reader,
        checkpoint.configHash = configHash) →
      (empty.run actions).resumePositions reader streams configHash =
        .ok ((empty.run actions).checkpoints.get? reader) := by
  refine ⟨fun process streams configHash checkpoint resumed stream reads => ⟨?_, ?_⟩, ?_⟩
  · rw [history_run]
    rfl
  · exact fun entry member later => mem_entries_of_resumed resumed reads member later
  · intro reader streams tracked configHash usable
    have pinned := @Along.invariant _ _ _ _ (fun redis : Redis α => redis.Pinned reader streams)
      (fun _ _ pinned allowed => pinned.step allowed) _ _ (empty_pinned reader streams) tracked
    exact Pinned.resumes pinned usable

/-- One reader of a stream of two entries, trimmed below its position. -/
theorem trimmed_below_a_reader :
    let out := Dict.empty.set "out" (toLex (2, 0))
    let actions : List (Action Unit) := [.append "out" 1 (), .append "out" 2 (),
      .save "reader" ⟨out, [], "A", 0⟩, .trim "out" ["reader"] "A" 1]
    ((empty.run actions).stream "out").removed = 1 ∧
      (empty.run actions).resumePositions "reader" ["out"] "A" =
        .ok ((empty.run actions).checkpoints.get? "reader") := by
  intro out actions
  exact ⟨by decide,
    (resume_and_trim_are_safe actions).2 "reader" ["out"] (by decide) "A" (by decide)⟩

/-- Every trim is made under the hash, and finds the reader's checkpoint usable. -/
def UsableAtTrims (reader configHash : String) (redis : Redis α) : Action α → Prop
  | .trim _ _ running _ => running = configHash ∧ (redis.load reader running).isSome
  | _ => True

instance (reader configHash : String) (redis : Redis α) :
    (action : Action α) → Decidable (UsableAtTrims reader configHash redis action)
  | .trim _ _ running _ =>
      inferInstanceAs (Decidable (running = configHash ∧ (redis.load reader running).isSome))
  | .append _ _ _ => .isTrue trivial
  | .save _ _ => .isTrue trivial
  | .resume _ _ _ => .isTrue trivial

/-- A reader that last saved under another configuration is turned away when it comes back under
the one that its stream was trimmed under. -/
theorem refused_after_a_detour :
    let out := Dict.empty.set "out" (toLex (2, 0))
    let actions : List (Action Unit) := [.append "out" 1 (), .append "out" 2 (),
      .save "reader" ⟨out, [], "A", 0⟩, .trim "out" ["reader"] "A" 1,
      .save "reader" ⟨out, [], "B", 0⟩]
    Along step (Tracked "reader" ["out"]) empty actions ∧
      Along step (UsableAtTrims "reader" "A") empty actions ∧
      (empty.run actions).resumePositions "reader" ["out"] "A" =
        .error ⟨"reader", "out", toLex (2, 0), toLex (0, 0)⟩ := by
  decide

end Redis

end QuantArena.Checkpointing
