import QuantArena.Foundations.Run
import QuantArena.Gateway.Producer

/-! Which callers of the producer are sure of an answer, and what its halt flag says. -/

set_option autoImplicit false

namespace QuantArena.Gateway

open Foundations Contracts

/-! ## Resolving futures -/

section Futures

variable {futures : List Future} {waiting : Nat}

theorem pending_settle {future : Nat} {result : Future} (done : result ≠ .pending)
    (after : (settle futures future result)[waiting]? = some .pending) :
    futures[waiting]? = some .pending ∧ waiting ≠ future := by
  unfold settle at after
  split at after
  · rename_i unresolved
    by_cases same : waiting = future
    · subst same
      rw [List.getElem?_set_self (List.getElem?_eq_some_iff.mp unresolved).1] at after
      exact absurd (Option.some.inj after) done
    · rw [List.getElem?_set_ne (Ne.symm same)] at after
      exact ⟨after, same⟩
  · rename_i resolved
    refine ⟨after, ?_⟩
    rintro rfl
    exact resolved after

theorem pending_failAll {batch : List Pending} {error : AppendError}
    (after : (failAll futures batch error)[waiting]? = some .pending) :
    futures[waiting]? = some .pending ∧ ∀ item ∈ batch, item.future ≠ waiting := by
  induction batch generalizing futures with
  | nil => exact ⟨after, by simp⟩
  | cons item rest ih =>
      obtain ⟨later, others⟩ := ih after
      obtain ⟨before, different⟩ := pending_settle (by simp) later
      exact ⟨before, List.forall_mem_cons.mpr ⟨different.symm, others⟩⟩

/-- However many answers there are, nothing of the batch is left waiting. -/
theorem pending_distribute {batch : List Pending} {replies : List Reply}
    (after : (distribute futures batch replies)[waiting]? = some .pending) :
    futures[waiting]? = some .pending ∧ ∀ item ∈ batch, item.future ≠ waiting := by
  induction batch generalizing futures replies with
  | nil => exact ⟨after, by simp⟩
  | cons item rest ih =>
      cases replies with
      | nil => exact pending_failAll after
      | cons reply replies =>
          unfold distribute at after
          split at after
          · rename_i resolved
            obtain ⟨before, others⟩ := ih after
            refine ⟨before, List.forall_mem_cons.mpr ⟨?_, others⟩⟩
            rintro rfl
            exact resolved before
          · cases reply with
            | value result =>
                obtain ⟨later, others⟩ := ih after
                obtain ⟨before, different⟩ := pending_settle (by simp) later
                exact ⟨before, List.forall_mem_cons.mpr ⟨different.symm, others⟩⟩
            | error =>
                obtain ⟨later, others⟩ := ih after
                obtain ⟨before, different⟩ := pending_settle (by simp) later
                exact ⟨before, List.forall_mem_cons.mpr ⟨different.symm, others⟩⟩
            | malformed => exact pending_failAll after

end Futures

namespace StreamProducer

/-! ## Who is attended to -/

/-- Some task of the producer has not ended. -/
def looping (producer : StreamProducer) : Prop := ∃ loop ∈ producer.loops, loop ≠ .ended

/-- A live task will come to this future, or has it in hand. -/
def Attends (producer : StreamProducer) (future : Nat) : Prop :=
  (producer.looping ∧ ∃ item ∈ producer.queue, item.future = future) ∨
    ∃ batch, .flushing batch ∈ producer.loops ∧ ∃ item ∈ batch, item.future = future

def NoOrphan (producer : StreamProducer) : Prop :=
  ∀ future : Nat, producer.futures[future]? = some .pending → producer.Attends future

/-- A request is claimed while a task is live, and a task that is cancelled before its first
step leaves either another one or nobody waiting. -/
def Permitted (producer : StreamProducer) : Event → Prop
  | .claimAndAppend _ _ _ => producer.looping
  | .cancelled task => producer.loops[task]? = some .created →
      (producer.setLoop task .ended).looping ∨
        ∀ item ∈ producer.queue, producer.futures[item.future]? ≠ some .pending
  | _ => True

variable {producer : StreamProducer}

theorem Attends.looping {future : Nat} (attends : producer.Attends future) : producer.looping := by
  obtain ⟨live, -⟩ | ⟨batch, flushing, -⟩ := attends
  · exact live
  · exact ⟨_, flushing, by simp⟩

theorem looping_of_running (running : producer.running = true) : producer.looping := by
  unfold StreamProducer.running at running
  cases current : producer.task with
  | none => simp [current] at running
  | some task =>
      cases located : producer.loops[task]? with
      | none => simp [current, located] at running
      | some loop =>
          exact ⟨loop, List.mem_of_getElem? located, by simpa [current, located] using running⟩

section Loops

variable {task : Nat} {old loop other : Loop}

theorem looping_setLoop (located : producer.loops[task]? = some old) (live : loop ≠ .ended) :
    (producer.setLoop task loop).looping := by
  refine ⟨loop, List.mem_of_getElem? (i := task) ?_, live⟩
  exact List.getElem?_set_self (List.getElem?_eq_some_iff.mp located).1

/-- Only the task's own place changes. -/
theorem mem_setLoop (located : producer.loops[task]? = some old) (loop : Loop)
    (member : other ∈ producer.loops) :
    other = old ∨ other ∈ (producer.setLoop task loop).loops := by
  obtain ⟨index, found⟩ := List.mem_iff_getElem?.mp member
  by_cases same : index = task
  · subst same
    exact .inl (Option.some.inj (found.symm.trans located))
  · refine .inr (List.mem_of_getElem? (i := index) ?_)
    rw [setLoop, List.getElem?_set_ne (Ne.symm same)]
    exact found

end Loops

/-! ## One event -/

/-- Draining answers everyone in the queue; who is left is in a batch. -/
theorem NoOrphan.drained (error : AppendError)
    (batched : ∀ future : Nat, producer.futures[future]? = some .pending →
      (∀ item ∈ producer.queue, item.future ≠ future) → producer.Attends future) :
    (producer.drainAndFail error).NoOrphan := by
  intro future waiting
  obtain ⟨before, absent⟩ := pending_failAll waiting
  obtain ⟨-, item, queued, same⟩ | flushing := batched future before absent
  · exact absurd same (absent item queued)
  · exact .inr flushing

theorem NoOrphan.start (orphanless : producer.NoOrphan) : producer.start.NoOrphan := by
  unfold StreamProducer.start
  split
  · exact orphanless
  · intro future waiting
    obtain ⟨-, queued⟩ | ⟨batch, flushing, held⟩ := orphanless future waiting
    · exact .inl ⟨⟨.created, by simp, by simp⟩, queued⟩
    · exact .inr ⟨batch, List.mem_append_left _ flushing, held⟩

theorem NoOrphan.stop (orphanless : producer.NoOrphan) : producer.stop.NoOrphan := by
  unfold StreamProducer.stop
  split
  · exact orphanless
  · exact NoOrphan.drained _ fun future waiting _ => orphanless future waiting

theorem NoOrphan.stopped (orphanless : producer.NoOrphan) (call : Nat) :
    (producer.stopped call).NoOrphan := by
  unfold StreamProducer.stopped
  split
  · exact orphanless
  · split
    · exact NoOrphan.drained _ fun future waiting _ => orphanless future waiting
    · exact orphanless

theorem enqueue_noOrphan (orphanless : producer.NoOrphan) (stream : String) (record : Inbound)
    (key : Option IdempotencyKey) :
    (producer.enqueue stream record key).NoOrphan ↔ producer.looping := by
  constructor
  · intro after
    exact (after producer.futures.length (by simp [enqueue])).looping
  · intro live future waiting
    by_cases new : future = producer.futures.length
    · exact .inl ⟨live, _, List.mem_append_right _ (List.mem_singleton_self _), new.symm⟩
    · have before : producer.futures[future]? = some .pending := by
        simp only [enqueue, List.getElem?_append] at waiting
        split at waiting
        · exact waiting
        · rename_i beyond
          have past : future - producer.futures.length ≠ 0 := by omega
          simp [past] at waiting
      obtain ⟨-, item, queued, same⟩ | flushing := orphanless future before
      · exact .inl ⟨live, item, List.mem_append_left _ queued, same⟩
      · exact .inr flushing

theorem NoOrphan.append (orphanless : producer.NoOrphan) (stream : String) (record : Inbound) :
    (producer.append stream record).1.NoOrphan := by
  unfold StreamProducer.append
  split
  · exact orphanless
  · split
    · exact orphanless
    · rename_i running
      have live := looping_of_running (by simpa using running)
      exact (enqueue_noOrphan orphanless stream record none).mpr live

theorem NoOrphan.giveUp (orphanless : producer.NoOrphan) (future : Nat) :
    ({ producer with
      futures := settle producer.futures future (.failed .cancelled) } :
        StreamProducer).NoOrphan := by
  intro other waiting
  exact orphanless other (pending_settle (by simp) waiting).1

theorem NoOrphan.take (orphanless : producer.NoOrphan) (task : Nat) :
    (producer.take task).NoOrphan := by
  unfold StreamProducer.take
  split
  · rename_i located
    intro future waiting
    obtain ⟨-, queued⟩ | ⟨batch, flushing, held⟩ := orphanless future waiting
    · exact .inl ⟨looping_setLoop located (by simp), queued⟩
    · cases mem_setLoop located .waiting flushing with
      | inl same => cases same
      | inr kept => exact .inr ⟨batch, kept, held⟩
  · rename_i item rest located queue
    intro future waiting
    obtain ⟨-, other, queued, same⟩ | ⟨batch, flushing, held⟩ := orphanless future waiting
    · rw [queue, ← List.take_append_drop (max 1 producer.batchMax) (item :: rest)] at queued
      cases List.mem_append.mp queued with
      | inl taken =>
          refine .inr ⟨_, List.mem_of_getElem? (i := task) ?_, other, taken, same⟩
          exact List.getElem?_set_self (List.getElem?_eq_some_iff.mp located).1
      | inr left => exact .inl ⟨looping_setLoop located (by simp), other, left, same⟩
    · cases mem_setLoop located (.flushing ((item :: rest).take (max 1 producer.batchMax)))
        flushing with
      | inl same => cases same
      | inr kept => exact .inr ⟨batch, kept, held⟩
  · exact orphanless

/-- Back at `queue.get`, with everyone of the batch answered. -/
theorem NoOrphan.flushedTo {task : Nat} {batch : List Pending} (orphanless : producer.NoOrphan)
    (located : producer.loops[task]? = some (.flushing batch)) {after : StreamProducer}
    (queue : after.queue = producer.queue) (loops : after.loops = producer.loops)
    (answered : ∀ future : Nat, after.futures[future]? = some .pending →
      producer.futures[future]? = some .pending ∧ ∀ item ∈ batch, item.future ≠ future) :
    (after.setLoop task .waiting).NoOrphan := by
  intro future waiting
  obtain ⟨before, absent⟩ := answered future waiting
  obtain ⟨-, queued⟩ | ⟨other, flushing, item, held, same⟩ := orphanless future before
  · refine .inl ⟨looping_setLoop (loops ▸ located) (by simp), ?_⟩
    simpa [setLoop, queue] using queued
  · cases mem_setLoop (loops ▸ located) .waiting (loops ▸ flushing) with
    | inl own =>
        cases own
        exact absurd same (absent item held)
    | inr kept => exact .inr ⟨other, kept, item, held, same⟩

theorem NoOrphan.flushed (orphanless : producer.NoOrphan) (task : Nat) (execution : Execution) :
    (producer.flushed task execution).NoOrphan := by
  unfold StreamProducer.flushed
  split
  · rename_i batch located
    cases execution with
    | replies replies =>
        exact orphanless.flushedTo located rfl rfl fun future => pending_distribute
    | unreachable => exact orphanless.flushedTo located rfl rfl fun future => pending_failAll
    | refused => exact orphanless.flushedTo located rfl rfl fun future => pending_failAll
    | raised => exact orphanless.flushedTo located rfl rfl fun future => pending_failAll
  · exact orphanless

theorem NoOrphan.ended {task : Nat} {old : Loop} (orphanless : producer.NoOrphan)
    (located : producer.loops[task]? = some old) {error : AppendError} {after : StreamProducer}
    (queue : after.queue = producer.queue) (loops : after.loops = producer.loops.set task .ended)
    (answered : ∀ future : Nat, after.futures[future]? = some .pending →
      producer.futures[future]? = some .pending ∧
        ∀ batch, old = .flushing batch → ∀ item ∈ batch, item.future ≠ future) :
    (after.drainAndFail error).NoOrphan := by
  refine NoOrphan.drained error fun future waiting absent => ?_
  obtain ⟨before, unheld⟩ := answered future waiting
  obtain ⟨-, item, queued, same⟩ | ⟨batch, flushing, item, held, same⟩ := orphanless future before
  · exact absurd same (absent item (queue ▸ queued))
  · cases mem_setLoop located .ended flushing with
    | inl own => exact absurd same (unheld batch own.symm item held)
    | inr kept => exact .inr ⟨batch, loops ▸ kept, item, held, same⟩

theorem cancelled_noOrphan (orphanless : producer.NoOrphan) (task : Nat) :
    (producer.cancelled task).NoOrphan ↔ producer.Permitted (.cancelled task) := by
  unfold StreamProducer.cancelled Permitted
  cases located : producer.loops[task]? with
  | none => exact iff_of_true orphanless (fun created => by simp [located] at created)
  | some loop =>
      cases loop with
      | created =>
          constructor
          · intro after _
            by_cases live : (producer.setLoop task .ended).looping
            · exact .inl live
            · exact .inr fun item _ waiting => live (after item.future waiting).looping
          · intro permitted future waiting
            obtain ⟨-, item, queued, same⟩ | ⟨batch, flushing, held⟩ := orphanless future waiting
            · cases permitted located with
              | inl live => exact .inl ⟨live, item, queued, same⟩
              | inr unasked => exact absurd (same ▸ waiting) (unasked item queued)
            · cases mem_setLoop located .ended flushing with
              | inl same => cases same
              | inr kept => exact .inr ⟨batch, kept, held⟩
      | waiting =>
          refine iff_of_true ?_ (fun created => by simp [located] at created)
          exact orphanless.ended located rfl rfl fun future waiting =>
            ⟨waiting, fun batch same => by cases same⟩
      | flushing batch =>
          refine iff_of_true ?_ (fun created => by simp [located] at created)
          refine orphanless.ended located rfl rfl fun future waiting => ?_
          obtain ⟨before, absent⟩ := pending_failAll waiting
          exact ⟨before, fun other same => by cases same; exact absent⟩
      | ended => exact iff_of_true orphanless (fun created => by simp [located] at created)

/-- The two ways to lose a caller, and no third. -/
theorem step_noOrphan (orphanless : producer.NoOrphan) (event : Event) :
    (producer.step event).NoOrphan ↔ producer.Permitted event := by
  cases event with
  | start => exact iff_of_true orphanless.start trivial
  | stop => exact iff_of_true orphanless.stop trivial
  | stopped call => exact iff_of_true (orphanless.stopped call) trivial
  | append stream record => exact iff_of_true (orphanless.append stream record) trivial
  | claimAndAppend stream record key => exact enqueue_noOrphan orphanless stream record (some key)
  | giveUp future => exact iff_of_true (orphanless.giveUp future) trivial
  | take task => exact iff_of_true (orphanless.take task) trivial
  | flushed task execution => exact iff_of_true (orphanless.flushed task execution) trivial
  | cancelled task => exact cancelled_noOrphan orphanless task
  | poll succeeded =>
      refine iff_of_true ?_ trivial
      simp only [step, StreamProducer.poll]
      split
      · exact orphanless
      · split
        · exact orphanless
        · exact orphanless

theorem new_noOrphan (batchMax : Nat) : (new batchMax).NoOrphan := by
  intro future waiting
  simp [new] at waiting

/-- Every caller is answered or attended to in every state of a run, and nobody waits in the
queue of a producer whose tasks have all ended, exactly when every event of it is permitted. -/
theorem no_orphan_iff_permitted (batchMax : Nat) (events : List Event) :
    Always step (fun producer => producer.NoOrphan ∧ (¬producer.looping →
        ∀ item ∈ producer.queue, producer.futures[item.future]? ≠ some .pending))
      (new batchMax) events ↔ Along step Permitted (new batchMax) events := by
  have exactly : ∀ (producer : StreamProducer) (event : Event), producer.NoOrphan →
      ((producer.step event).NoOrphan ↔ producer.Permitted event) :=
    fun _ event orphanless => step_noOrphan orphanless event
  rw [← always_iff_along exactly (new_noOrphan batchMax)]
  constructor
  · exact fun always before after split => (always before after split).1
  · intro always before after split
    have orphanless := always before after split
    exact ⟨orphanless, fun idle item _ waiting =>
      idle (orphanless item.future waiting).looping⟩

/-- A claim made before the task exists, and one made after it was stopped: both wait for
nobody, the second for good. -/
theorem claims_without_a_task_are_orphaned :
    ¬(run 8 [.claimAndAppend "in" .other (1, 7)]).NoOrphan ∧
      ¬(run 8 [.start, .take 0, .stop, .cancelled 0, .stopped 0,
        .claimAndAppend "in" .other (1, 7)]).NoOrphan := by
  constructor <;> intro orphanless
  · obtain ⟨loop, present, -⟩ := (orphanless 0 rfl).looping
    cases present
  · obtain ⟨loop, present, live⟩ := (orphanless 0 rfl).looping
    exact live (List.mem_singleton.mp present)

/-! ## What the halt flag says -/

/-- How an append attempt ended. -/
inductive Attempt where
  | recorded
  | unreachable
  /-- Redis answered that it would not write. -/
  | refused
  | raised
deriving DecidableEq, Repr

def Reply.attempt : Reply → Attempt
  | .value _ => .recorded
  | .error => .refused
  | .malformed => .raised

/-- The attempts that an event completes, in the order of the batch. -/
def completed (producer : StreamProducer) : Event → List Attempt
  | .flushed task execution =>
      match producer.loops[task]?, execution with
      | some (.flushing batch), .replies replies => (replies.take batch.length).map Reply.attempt
      | some (.flushing batch), .unreachable => batch.map fun _ => .unreachable
      | some (.flushing batch), .refused => batch.map fun _ => .refused
      | some (.flushing batch), .raised => batch.map fun _ => .raised
      | _, _ => []
  | _ => []

def attempts (producer : StreamProducer) : List Event → List Attempt
  | [] => []
  | event :: rest => producer.completed event ++ (producer.step event).attempts rest

/-- A write that a readable store refuses halts nothing, and the first ping that succeeds
lifts a halt although nothing has been appended since. -/
theorem halt_is_no_record_of_the_latest_attempt :
    let claimed : List Event := [.start, .take 0, .claimAndAppend "in" .other (1, 7), .take 0]
    ((new 8).attempts (claimed ++ [.flushed 0 (.replies [.error])]) = [.refused] ∧
      (run 8 (claimed ++ [.flushed 0 (.replies [.error])])).halt.halted = false) ∧
    (new 8).attempts (claimed ++ [.flushed 0 .unreachable, .poll true]) = [.unreachable] ∧
      (run 8 (claimed ++ [.flushed 0 .unreachable, .poll true])).halt.halted = false := by
  decide

theorem step_halted {event : Event} (halted : producer.halt.halted = true)
    (unpolled : event ≠ .poll true) : (producer.step event).halt.halted = true := by
  cases event with
  | start =>
      simp only [step, StreamProducer.start]
      split <;> exact halted
  | stop =>
      simp only [step, StreamProducer.stop]
      split <;> exact halted
  | stopped call =>
      simp only [step, StreamProducer.stopped]
      split
      · exact halted
      · split <;> exact halted
  | append stream record =>
      simp only [step, StreamProducer.append, halted, if_true]
  | claimAndAppend stream record key => exact halted
  | giveUp future => exact halted
  | take task =>
      simp only [step, StreamProducer.take]
      split <;> exact halted
  | flushed task execution =>
      simp only [step, StreamProducer.flushed]
      split
      · cases execution with
        | unreachable => rfl
        | replies replies => exact halted
        | refused => exact halted
        | raised => exact halted
      · exact halted
  | cancelled task =>
      simp only [step, StreamProducer.cancelled]
      split
      · exact halted
      · rfl
      · rfl
      · exact halted
  | poll succeeded =>
      cases succeeded with
      | true => exact absurd rfl unpolled
      | false => rfl

/-- An append that fails for want of Redis halts the exchange until a ping succeeds. -/
theorem halted_until_a_poll_succeeds (batchMax : Nat) (before after : List Event) {task : Nat}
    {batch : List Pending}
    (flushing : (run batchMax before).loops[task]? = some (.flushing batch))
    (unpolled : .poll true ∉ after) :
    (run batchMax (before ++ .flushed task .unreachable :: after)).halt.halted = true := by
  have failed : ((run batchMax before).flushed task .unreachable).halt.halted = true := by
    simp only [StreamProducer.flushed, flushing]
    rfl
  have along : Along step (fun _ event => event ≠ .poll true)
      ((run batchMax before).flushed task .unreachable) after := by
    refine Along.of_forall (fun event member _ => ?_) _
    rintro rfl
    exact unpolled member
  have preserved : ∀ (producer : StreamProducer) (event : Event), producer.halt.halted = true →
      event ≠ .poll true → (producer.step event).halt.halted = true :=
    fun _ _ => step_halted
  rw [run, List.foldl_append, List.foldl_cons]
  exact along.invariant preserved failed

theorem halted_after_a_lost_connection :
    (run 8 ([.start, .take 0, .claimAndAppend "in" .other (1, 7), .take 0] ++
      .flushed 0 .unreachable :: [.poll false, .giveUp 0])).halt.halted = true :=
  @halted_until_a_poll_succeeds 8 _ _ 0 [⟨"in", .other, 0, some (1, 7)⟩] rfl (by decide)

end StreamProducer

end QuantArena.Gateway
