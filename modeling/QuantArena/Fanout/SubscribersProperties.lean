import QuantArena.Fanout.Subscribers
import QuantArena.Foundations.Run

/-! What holds of one connection in every order of its moves: when it is busy, how much
market data waits for it, and what its writer sends. -/

set_option autoImplicit false

namespace QuantArena.Fanout

open Foundations

namespace Subscriber

variable {φ : Type} {subscriber : Subscriber φ}

/-- The writer has taken a batch and has not sent all of it. -/
def Sending (subscriber : Subscriber φ) : Prop :=
  ∃ size privateCount rest, subscriber.writer = .sending size privateCount rest

/-- What the queues, the event and the flags agree on between two moves. -/
structure Orderly (subscriber : Subscriber φ) : Prop where
  unsent : ∀ size privateCount rest, subscriber.writer = .sending size privateCount rest → rest ≠ []
  running : subscriber.closed = true ↔ subscriber.writer = .ended
  handed : subscriber.closed = false → subscriber.wake = true →
    subscriber.busy = true ∧ subscriber.batch ≠ []
  urgent : subscriber.closed = false → subscriber.privateQueue ≠ [] → subscriber.wake = true

theorem new_orderly (userId : Int) (privateMax : Nat) :
    (new userId privateMax : Subscriber φ).Orderly where
  unsent := by simp [new]
  running := by simp [new]
  handed := by simp [new]
  urgent := by simp [new]

theorem Orderly.opened_of_waiting (orderly : subscriber.Orderly)
    (stands : subscriber.writer = .waiting) : subscriber.closed = false := by
  rw [← Bool.not_eq_true, orderly.running, stands]
  simp

theorem batch_eq_nil_iff :
    subscriber.batch = [] ↔ subscriber.privateQueue = [] ∧ subscriber.marketQueue = [] := by
  simp [batch]

/-! ## What each move leaves -/

theorem takeBatch_of_empty (empty : subscriber.batch = []) :
    subscriber.takeBatch = { subscriber with
      wake := false, busy := false, writer := .waiting } := by
  obtain ⟨noPrivate, noMarket⟩ := batch_eq_nil_iff.mp empty
  simp only [takeBatch, if_pos empty, noPrivate, noMarket]

theorem takeBatch_of_nonempty (queued : subscriber.batch ≠ []) :
    subscriber.takeBatch = { subscriber with
      wake := false
      privateQueue := []
      marketQueue := []
      writer := .sending subscriber.batch.length subscriber.privateQueue.length
        subscriber.batch } := by
  simp only [takeBatch, if_neg queued]

/-- The subscriber after the last frame of a batch, before the loop's next round. -/
def finished (subscriber : Subscriber φ) (size privateCount : Nat) (frame : Lane × φ) :
    Subscriber φ :=
  { subscriber with
    socket := subscriber.socket ++ [frame]
    sent := subscriber.sent + size
    privateSent := subscriber.privateSent + privateCount
    busy := false }

theorem written_last {size privateCount : Nat} {frame : Lane × φ}
    (last : subscriber.writer = .sending size privateCount [frame]) :
    subscriber.written = (subscriber.finished size privateCount frame).runWriter := by
  simp only [written, last, finished, if_true]

theorem written_more {size privateCount : Nat} {frame : Lane × φ} {rest : List (Lane × φ)}
    (more : subscriber.writer = .sending size privateCount (frame :: rest)) (some_ : rest ≠ []) :
    subscriber.written = { subscriber with
      socket := subscriber.socket ++ [frame]
      writer := .sending size privateCount rest } := by
  simp only [written, more, if_neg some_]

/-- What completing a send does: nothing to send, more to send, the next batch at once, or rest. -/
theorem written_cases (orderly : subscriber.Orderly) :
    subscriber.written = subscriber ∧ ¬ subscriber.Sending ∨
    (∃ size privateCount frame rest, rest ≠ [] ∧
      subscriber.writer = .sending size privateCount (frame :: rest) ∧
      subscriber.written = { subscriber with
        socket := subscriber.socket ++ [frame]
        writer := .sending size privateCount rest }) ∨
    ∃ size privateCount frame, subscriber.writer = .sending size privateCount [frame] ∧
      subscriber.written = (subscriber.finished size privateCount frame).runWriter := by
  cases stands : subscriber.writer with
  | waiting => exact .inl ⟨by simp only [written, stands], by simp [Sending, stands]⟩
  | ended => exact .inl ⟨by simp only [written, stands], by simp [Sending, stands]⟩
  | sending size privateCount rest =>
      cases rest with
      | nil => exact absurd rfl (orderly.unsent size privateCount [] stands)
      | cons frame rest =>
          cases rest with
          | nil => exact .inr (.inr ⟨size, privateCount, frame, rfl, written_last stands⟩)
          | cons next rest =>
              exact .inr (.inl ⟨size, privateCount, frame, next :: rest, by simp, rfl,
                written_more stands (by simp)⟩)

/-! ## Between two moves -/

theorem takeBatch_orderly (opened : subscriber.closed = false) : subscriber.takeBatch.Orderly := by
  by_cases empty : subscriber.batch = []
  · obtain ⟨noPrivate, -⟩ := batch_eq_nil_iff.mp empty
    rw [takeBatch_of_empty empty]
    exact ⟨by simp, by simp [opened], by simp, by simp [noPrivate]⟩
  · rw [takeBatch_of_nonempty empty]
    refine ⟨?_, by simp [opened], by simp, by simp⟩
    intro size privateCount rest stands
    cases stands
    exact empty

theorem runWriter_orderly
    (urgent : subscriber.closed = false → subscriber.privateQueue ≠ [] → subscriber.wake = true) :
    subscriber.runWriter.Orderly := by
  unfold runWriter
  split
  · rename_i closed
    exact ⟨by simp, by simp [closed], by simp [closed], by simp [closed]⟩
  · rename_i opened
    have opened : subscriber.closed = false := Bool.eq_false_iff.mpr opened
    split
    · exact takeBatch_orderly opened
    · rename_i asleep
      exact ⟨by simp, by simp [opened], by simp [asleep], urgent⟩

theorem Orderly.offerMarket (orderly : subscriber.Orderly) (frame : φ) :
    (subscriber.offerMarket frame).1.Orderly := by
  unfold Subscriber.offerMarket
  split
  · exact orderly
  · rename_i opened
    split
    · exact ⟨orderly.unsent, orderly.running, orderly.handed, orderly.urgent⟩
    · rename_i free
      refine ⟨orderly.unsent, orderly.running, fun opened woken => ?_, orderly.urgent⟩
      exact absurd (orderly.handed opened woken).1 free

theorem Orderly.offerPrivate (orderly : subscriber.Orderly) (frame : φ) :
    (subscriber.offerPrivate frame).1.Orderly := by
  unfold Subscriber.offerPrivate
  split
  · exact orderly
  · split
    · exact ⟨orderly.unsent, orderly.running, orderly.handed, orderly.urgent⟩
    · exact ⟨orderly.unsent, orderly.running, by simp [handOver, batch], by simp [handOver]⟩

theorem Orderly.flush (orderly : subscriber.Orderly) : subscriber.flush.Orderly := by
  unfold Subscriber.flush
  split
  · exact orderly
  · rename_i due
    refine ⟨orderly.unsent, orderly.running, fun _ _ => ⟨rfl, fun empty => due (.inr ?_)⟩, by
      simp [handOver]⟩
    exact (batch_eq_nil_iff.mp empty).symm

theorem Orderly.written (orderly : subscriber.Orderly) : subscriber.written.Orderly := by
  obtain ⟨same, -⟩ | ⟨size, privateCount, frame, rest, more, stands, now⟩ |
    ⟨size, privateCount, frame, -, now⟩ := written_cases orderly
  · rw [same]
    exact orderly
  · rw [now]
    refine ⟨?_, ?_, orderly.handed, orderly.urgent⟩
    · intro _ _ _ stands
      cases stands
      exact more
    · simpa [stands] using orderly.running
  · rw [now]
    exact runWriter_orderly orderly.urgent

theorem Orderly.resume (orderly : subscriber.Orderly) : subscriber.resume.Orderly := by
  unfold Subscriber.resume
  split
  · rename_i stands
    split
    · exact takeBatch_orderly (orderly.opened_of_waiting stands)
    · exact orderly
  · exact orderly

theorem Orderly.broken (orderly : subscriber.Orderly) : subscriber.broken.Orderly := by
  unfold Subscriber.broken
  split
  · exact ⟨by simp, by simp, by simp, by simp⟩
  · exact orderly

theorem Orderly.step (orderly : subscriber.Orderly) (move : Move φ) :
    (subscriber.step move).Orderly := by
  cases move with
  | offerMarket frame => exact orderly.offerMarket frame
  | offerPrivate frame => exact orderly.offerPrivate frame
  | subscribe _ => exact ⟨orderly.unsent, orderly.running, orderly.handed, orderly.urgent⟩
  | unsubscribe _ => exact ⟨orderly.unsent, orderly.running, orderly.handed, orderly.urgent⟩
  | takeFresh => exact ⟨orderly.unsent, orderly.running, orderly.handed, orderly.urgent⟩
  | flush => exact orderly.flush
  | resume => exact orderly.resume
  | written => exact orderly.written
  | broken => exact orderly.broken
  | stop => exact ⟨by simp [Subscriber.step, stop], by simp [Subscriber.step, stop],
      by simp [Subscriber.step, stop], by simp [Subscriber.step, stop]⟩

/-! ## The slow-client test -/

/-- Whoever is in the middle of a batch is seen to be busy. -/
def Timely (subscriber : Subscriber φ) : Prop := subscriber.Sending → subscriber.busy = true

/-- No frame was handed over while the batch that this move completes was being written. -/
def Quiet (subscriber : Subscriber φ) : Move φ → Prop
  | .written => ∀ size privateCount frame,
      subscriber.writer = .sending size privateCount [frame] → subscriber.wake = false
  | _ => True

theorem Timely.takeBatch (handed : subscriber.wake = true → subscriber.busy = true)
    (woken : subscriber.wake = true) : subscriber.takeBatch.Timely := by
  by_cases empty : subscriber.batch = []
  · rw [takeBatch_of_empty empty]
    simp [Timely, Sending]
  · rw [takeBatch_of_nonempty empty]
    exact fun _ => handed woken

theorem Timely.step (orderly : subscriber.Orderly) (timely : subscriber.Timely) {move : Move φ}
    (quiet : subscriber.Quiet move) : (subscriber.step move).Timely := by
  cases move with
  | offerMarket frame =>
      simp only [Subscriber.step, Subscriber.offerMarket]
      split
      · exact timely
      · split
        · exact timely
        · exact timely
  | offerPrivate frame =>
      simp only [Subscriber.step, Subscriber.offerPrivate]
      split
      · exact timely
      · split
        · exact timely
        · exact fun _ => rfl
  | subscribe _ => exact timely
  | unsubscribe _ => exact timely
  | takeFresh => exact timely
  | flush =>
      simp only [Subscriber.step, Subscriber.flush]
      split
      · exact timely
      · exact fun _ => rfl
  | resume =>
      simp only [Subscriber.step, Subscriber.resume]
      split
      · rename_i stands
        split
        · rename_i woken
          exact .takeBatch (fun woken =>
            (orderly.handed (orderly.opened_of_waiting stands) woken).1) woken
        · exact timely
      · exact timely
  | written =>
      obtain ⟨same, -⟩ | ⟨size, privateCount, frame, rest, -, stands, now⟩ |
        ⟨size, privateCount, frame, stands, now⟩ := written_cases orderly
      · simp only [Subscriber.step, same]
        exact timely
      · simp only [Subscriber.step, now]
        exact fun _ => timely ⟨size, privateCount, frame :: rest, stands⟩
      · have asleep : subscriber.wake = false := quiet size privateCount frame stands
        simp only [Subscriber.step, now, runWriter, finished, asleep]
        split
        · simp [Timely, Sending]
        · simp [Timely, Sending]
  | broken =>
      simp only [Subscriber.step, Subscriber.broken]
      split
      · simp [Timely, Sending]
      · exact timely
  | stop => simp [Timely, Sending, Subscriber.step, stop]

theorem Orderly.quiet_of_timely (orderly : subscriber.Orderly) {move : Move φ}
    (timely : (subscriber.step move).Timely) : subscriber.Quiet move := by
  cases move with
  | written =>
      intro size privateCount frame stands
      rw [← Bool.not_eq_true]
      intro woken
      have opened : subscriber.closed = false := by
        rw [← Bool.not_eq_true, orderly.running, stands]
        simp
      -- the batch that the writer takes at once is not empty, and nobody has set the flag again
      have queued : (subscriber.finished size privateCount frame).batch ≠ [] :=
        (orderly.handed opened woken).2
      have next : subscriber.written =
          (subscriber.finished size privateCount frame).takeBatch := by
        rw [written_last stands]
        simp [runWriter, finished, opened, woken]
      simp only [Subscriber.step, next, takeBatch_of_nonempty queued] at timely
      exact absurd (timely ⟨_, _, _, rfl⟩) (by simp [finished])
  | _ => trivial

/-! ## One tick's frames -/

/-- The market frames offered in a stretch of moves. -/
def offered (moves : List (Move φ)) : List φ :=
  moves.filterMap fun
    | .offerMarket frame => some frame
    | _ => none

theorem offered_append (first second : List (Move φ)) :
    offered (first ++ second) = offered first ++ offered second := List.filterMap_append

/-- What is queued will not be added to before it is taken. -/
def Waits (subscriber : Subscriber φ) : Prop :=
  subscriber.marketQueue = [] ∨ subscriber.closed = true ∨
    subscriber.busy = true ∧ subscriber.wake = true

theorem takeBatch_marketQueue (subscriber : Subscriber φ) :
    subscriber.takeBatch.marketQueue = [] := by
  by_cases empty : subscriber.batch = []
  · rw [takeBatch_of_empty empty]
    exact (batch_eq_nil_iff.mp empty).2
  · rw [takeBatch_of_nonempty empty]

theorem runWriter_marketQueue (subscriber : Subscriber φ) :
    subscriber.runWriter.marketQueue = subscriber.marketQueue ∨
      subscriber.runWriter.marketQueue = [] := by
  unfold runWriter
  split
  · exact .inl rfl
  · split
    · exact .inr (takeBatch_marketQueue subscriber)
    · exact .inl rfl

/-- Only an offer adds to the queue. -/
theorem Orderly.marketQueue_step (orderly : subscriber.Orderly) (move : Move φ) :
    (subscriber.step move).marketQueue = subscriber.marketQueue ∨
      (subscriber.step move).marketQueue = [] ∨
      ∃ frame, move = .offerMarket frame ∧
        (subscriber.step move).marketQueue = subscriber.marketQueue ++ [frame] := by
  cases move with
  | offerMarket frame =>
      simp only [Subscriber.step, Subscriber.offerMarket]
      split
      · exact .inl rfl
      · split
        · exact .inl rfl
        · exact .inr (.inr ⟨frame, rfl, rfl⟩)
  | offerPrivate frame =>
      simp only [Subscriber.step, Subscriber.offerPrivate]
      split
      · exact .inl rfl
      · split
        · exact .inl rfl
        · exact .inl rfl
  | subscribe _ => exact .inl rfl
  | unsubscribe _ => exact .inl rfl
  | takeFresh => exact .inl rfl
  | flush =>
      simp only [Subscriber.step, Subscriber.flush]
      split
      · exact .inl rfl
      · exact .inl rfl
  | resume =>
      simp only [Subscriber.step, Subscriber.resume]
      split
      · split
        · exact .inr (.inl (takeBatch_marketQueue subscriber))
        · exact .inl rfl
      · exact .inl rfl
  | written =>
      obtain ⟨same, -⟩ | ⟨size, privateCount, frame, rest, -, -, now⟩ |
        ⟨size, privateCount, frame, -, now⟩ := written_cases orderly
      · exact .inl (congrArg marketQueue same)
      · exact .inl (by simp only [Subscriber.step, now])
      · simp only [Subscriber.step, now]
        obtain kept | taken := runWriter_marketQueue (subscriber.finished size privateCount frame)
        · exact .inl kept
        · exact .inr (.inl taken)
  | broken =>
      simp only [Subscriber.step, Subscriber.broken]
      split
      · exact .inl rfl
      · exact .inl rfl
  | stop => exact .inl rfl

theorem Waits.step (orderly : subscriber.Orderly) (waits : subscriber.Waits)
    (queued : subscriber.marketQueue ≠ []) (move : Move φ) :
    (subscriber.step move).Waits ∧
      ((subscriber.step move).marketQueue = subscriber.marketQueue ∨
        (subscriber.step move).marketQueue = []) := by
  have refuses : subscriber.closed = true ∨ subscriber.busy = true ∧ subscriber.wake = true :=
    waits.resolve_left queued
  cases move with
  | offerMarket frame =>
      simp only [Subscriber.step, Subscriber.offerMarket]
      split
      · exact ⟨waits, .inl rfl⟩
      · rename_i opened
        obtain ⟨busy, woken⟩ := refuses.resolve_left opened
        rw [if_pos busy]
        exact ⟨.inr (.inr ⟨busy, woken⟩), .inl rfl⟩
  | offerPrivate frame =>
      simp only [Subscriber.step, Subscriber.offerPrivate]
      split
      · exact ⟨waits, .inl rfl⟩
      · split
        · exact ⟨waits, .inl rfl⟩
        · exact ⟨.inr (.inr ⟨rfl, rfl⟩), .inl rfl⟩
  | subscribe _ => exact ⟨waits, .inl rfl⟩
  | unsubscribe _ => exact ⟨waits, .inl rfl⟩
  | takeFresh => exact ⟨waits, .inl rfl⟩
  | flush =>
      simp only [Subscriber.step, Subscriber.flush]
      split
      · exact ⟨waits, .inl rfl⟩
      · exact ⟨.inr (.inr ⟨rfl, rfl⟩), .inl rfl⟩
  | resume =>
      simp only [Subscriber.step, Subscriber.resume]
      split
      · split
        · exact ⟨.inl (takeBatch_marketQueue subscriber), .inr (takeBatch_marketQueue subscriber)⟩
        · exact ⟨waits, .inl rfl⟩
      · exact ⟨waits, .inl rfl⟩
  | written =>
      obtain ⟨same, -⟩ | ⟨size, privateCount, frame, rest, -, -, now⟩ |
        ⟨size, privateCount, frame, -, now⟩ := written_cases orderly
      · simp only [Subscriber.step, same]
        exact ⟨waits, by simp⟩
      · simp only [Subscriber.step, now]
        exact ⟨waits, by simp⟩
      · simp only [Subscriber.step, now, runWriter]
        split
        · rename_i closed
          exact ⟨.inr (.inl closed), .inl rfl⟩
        · rename_i opened
          have woken : (subscriber.finished size privateCount frame).wake = true :=
            (refuses.resolve_left opened).2
          rw [if_pos woken]
          exact ⟨.inl (takeBatch_marketQueue _), .inr (takeBatch_marketQueue _)⟩
  | broken =>
      simp only [Subscriber.step, Subscriber.broken]
      split
      · exact ⟨.inr (.inl rfl), by simp⟩
      · exact ⟨waits, by simp⟩
  | stop => exact ⟨.inr (.inl rfl), .inl rfl⟩

theorem flush_waits (subscriber : Subscriber φ) :
    subscriber.flush.Waits ∧ subscriber.flush.marketQueue = subscriber.marketQueue := by
  unfold Subscriber.flush
  split
  · rename_i idle
    obtain closed | ⟨empty, -⟩ := idle
    · exact ⟨.inr (.inl closed), rfl⟩
    · exact ⟨.inl empty, rfl⟩
  · exact ⟨.inr (.inr ⟨rfl, rfl⟩), rfl⟩

/-- Everything queued was offered in one stretch without a flush, and if a flush has come
since then, nothing is added to it. -/
def OneTick (moves : List (Move φ)) (subscriber : Subscriber φ) : Prop :=
  ∃ before tick after, moves = before ++ tick ++ after ∧ Move.flush ∉ tick ∧
    subscriber.marketQueue.Sublist (offered tick) ∧ (after = [] ∨ subscriber.Waits)

theorem oneTick_extend {before tick : List (Move φ)} (orderly : subscriber.Orderly)
    (unflushed : Move.flush ∉ tick) (queued : subscriber.marketQueue.Sublist (offered tick))
    (move : Move φ) : OneTick (before ++ tick ++ [move]) (subscriber.step move) := by
  by_cases flushed : move = .flush
  · subst flushed
    obtain ⟨waits, kept⟩ := flush_waits subscriber
    exact ⟨before, tick, [.flush], rfl, unflushed, kept ▸ queued, .inr waits⟩
  · refine ⟨before, tick ++ [move], [], by simp, by simp [unflushed, Ne.symm flushed], ?_, .inl rfl⟩
    rw [offered_append]
    obtain same | empty | ⟨frame, rfl, added⟩ := orderly.marketQueue_step move
    · rw [same]
      exact queued.trans (List.sublist_append_left ..)
    · rw [empty]
      exact List.nil_sublist _
    · rw [added]
      exact queued.append (List.Sublist.refl _)

theorem OneTick.step {moves : List (Move φ)} (orderly : subscriber.Orderly)
    (held : OneTick moves subscriber) (move : Move φ) :
    OneTick (moves ++ [move]) (subscriber.step move) := by
  obtain ⟨before, tick, after, rfl, unflushed, queued, rfl | waits⟩ := held
  · rw [List.append_nil]
    exact oneTick_extend orderly unflushed queued move
  · by_cases empty : subscriber.marketQueue = []
    · have nothing : subscriber.marketQueue.Sublist (offered ([] : List (Move φ))) := by
        rw [empty]
        exact List.nil_sublist _
      simpa using @oneTick_extend _ _ (before ++ tick ++ after) _ orderly (by simp) nothing move
    · obtain ⟨still, same | taken⟩ := waits.step orderly empty move
      · exact ⟨before, tick, after ++ [move], by simp, unflushed, same ▸ queued, .inr still⟩
      · exact ⟨before, tick, after ++ [move], by simp, unflushed, by simp [taken], .inr still⟩

theorem run_orderly (userId : Int) (privateMax : Nat) (moves : List (Move φ)) :
    (moves.foldl step (new userId privateMax)).Orderly ∧
      OneTick moves (moves.foldl step (new userId privateMax)) := by
  induction moves using List.reverseRecOn with
  | nil => exact ⟨new_orderly userId privateMax, ⟨[], [], [], rfl, by simp, by simp [new], .inl rfl⟩⟩
  | append_singleton moves move ih =>
      obtain ⟨orderly, held⟩ := ih
      rw [List.foldl_append]
      exact ⟨orderly.step move, held.step orderly move⟩

/-- The flag is exact: while a batch is being written the subscriber is busy, so market data is
refused, and the market queue never holds more than was offered between two flushes. -/
structure Exact (moves : List (Move φ)) (subscriber : Subscriber φ) : Prop where
  busy : subscriber.Sending → subscriber.busy = true
  refuses : subscriber.Sending → ∀ frame, (subscriber.offerMarket frame).2 = false
  bounded : ∃ before tick after, moves = before ++ tick ++ after ∧ Move.flush ∉ tick ∧
    subscriber.marketQueue.Sublist (offered tick)

theorem exact_iff_timely {moves : List (Move φ)} (held : OneTick moves subscriber) :
    Exact moves subscriber ↔ subscriber.Timely := by
  constructor
  · exact fun exact_ => exact_.busy
  · intro timely
    obtain ⟨before, tick, after, split, unflushed, queued, -⟩ := held
    refine ⟨timely, fun sending frame => ?_, before, tick, after, split, unflushed, queued⟩
    unfold offerMarket
    split
    · rfl
    · rw [if_pos (timely sending)]

/-- The slow-client test is exact throughout a run exactly if no frame is handed over while the
batch before it is being written to its end. -/
theorem slow_client_test_exact_iff (userId : Int) (privateMax : Nat) (moves : List (Move φ)) :
    (∀ before after, moves = before ++ after →
      Exact before (before.foldl step (new userId privateMax))) ↔
    Along step Quiet (new userId privateMax) moves := by
  have timely_iff : Always step Timely (new userId privateMax) moves ↔
      Along step Quiet (new userId privateMax) moves := by
    refine @always_iff_along_of_invariant _ _ _ _ (fun subscriber : Subscriber φ =>
      subscriber.Orderly ∧ subscriber.Timely) _ (fun _ held => held.2) ?_ ?_ _ _ ?_
    · exact fun subscriber move held quiet => ⟨held.1.step move, held.2.step held.1 quiet⟩
    · exact fun subscriber move held timely => held.1.quiet_of_timely timely
    · exact ⟨new_orderly userId privateMax, by simp [Timely, Sending, new]⟩
  rw [← timely_iff]
  constructor
  · intro exact_ before after split
    exact (exact_ before after split).busy
  · intro timely before after split
    exact (exact_iff_timely (run_orderly userId privateMax before).2).mpr (timely before after split)

/-- A private message that arrives during a write: its own batch is written unseen. -/
theorem second_batch_of_a_burst :
    let moves : List (Move Nat) := [.offerPrivate 1, .resume, .offerPrivate 2, .written]
    let subscriber := moves.foldl step (new 1 privateBufferMax)
    subscriber.writer = .sending 1 1 [(.privateData, 2)] ∧ ¬ Exact moves subscriber ∧
      (subscriber.offerMarket 3).2 = true := by
  refine ⟨by decide, fun exact_ => ?_, by decide⟩
  exact absurd (exact_.busy ⟨1, 1, [(.privateData, 2)], by decide⟩) (by decide)

end Subscriber

end QuantArena.Fanout
