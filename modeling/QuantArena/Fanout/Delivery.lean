import QuantArena.Fanout.SubscribersProperties

/-! Every accepted frame of a queue is sent once and in the order it was accepted in, and
a writer that is given its turns sends all private frames. -/

set_option autoImplicit false

namespace QuantArena.Fanout

namespace Subscriber

variable {φ : Type} {subscriber : Subscriber φ}

/-- The frames of one queue among frames of both. -/
def ofLane (lane : Lane) (frames : List (Lane × φ)) : List φ :=
  frames.filterMap fun entry => if entry.1 = lane then some entry.2 else none

theorem ofLane_append (lane : Lane) (first second : List (Lane × φ)) :
    ofLane lane (first ++ second) = ofLane lane first ++ ofLane lane second := List.filterMap_append

@[simp] theorem ofLane_nil (lane : Lane) : ofLane lane ([] : List (Lane × φ)) = [] := rfl

theorem ofLane_cons (lane : Lane) (entry : Lane × φ) (rest : List (Lane × φ)) :
    ofLane lane (entry :: rest) = ofLane lane [entry] ++ ofLane lane rest :=
  ofLane_append lane [entry] rest

@[simp] theorem ofLane_map_self (lane : Lane) (frames : List φ) :
    ofLane lane (frames.map (lane, ·)) = frames := by
  simp [ofLane, List.filterMap_map]

theorem ofLane_map_of_ne {lane other : Lane} (different : other ≠ lane) (frames : List φ) :
    ofLane lane (frames.map (other, ·)) = [] := by
  simp [ofLane, List.filterMap_map, different]

def queue (subscriber : Subscriber φ) : Lane → List φ
  | .marketData => subscriber.marketQueue
  | .privateData => subscriber.privateQueue

/-- What the writer has taken and not sent yet. -/
def inFlight (subscriber : Subscriber φ) : List (Lane × φ) :=
  match subscriber.writer with
  | .sending _ _ rest => rest
  | _ => []

@[simp] theorem ofLane_batch (subscriber : Subscriber φ) (lane : Lane) :
    ofLane lane subscriber.batch = subscriber.queue lane := by
  cases lane with
  | marketData =>
      rw [batch, ofLane_append, ofLane_map_of_ne (by simp), ofLane_map_self]
      rfl
  | privateData =>
      rw [batch, ofLane_append, ofLane_map_self, ofLane_map_of_ne (by simp), List.append_nil]
      rfl

/-- What was sent is a prefix of what was accepted, and until the connection is closed the
rest of it is in the writer's hands or queued. -/
structure Delivers (subscriber : Subscriber φ) : Prop where
  sent : ∀ lane, ofLane lane subscriber.socket <+: ofLane lane subscriber.accepted
  whole : subscriber.closed = false → ∀ lane, ofLane lane subscriber.accepted =
    ofLane lane subscriber.socket ++ ofLane lane subscriber.inFlight ++ subscriber.queue lane

theorem new_delivers (userId : Int) (privateMax : Nat) :
    (new userId privateMax : Subscriber φ).Delivers where
  sent := fun _ => List.prefix_refl _
  whole := fun _ lane => by cases lane <;> rfl

theorem Delivers.of_whole
    (whole : ∀ lane, ofLane lane subscriber.accepted =
      ofLane lane subscriber.socket ++ ofLane lane subscriber.inFlight ++ subscriber.queue lane) :
    subscriber.Delivers :=
  ⟨fun lane => ⟨_, (List.append_assoc .. ▸ whole lane).symm⟩, fun _ => whole⟩

theorem Delivers.takeBatch (delivers : subscriber.Delivers) (opened : subscriber.closed = false)
    (idle : subscriber.inFlight = []) : subscriber.takeBatch.Delivers := by
  by_cases empty : subscriber.batch = []
  · rw [takeBatch_of_empty empty]
    refine .of_whole fun lane => ?_
    have whole := delivers.whole opened lane
    rw [idle] at whole
    exact whole
  · rw [takeBatch_of_nonempty empty]
    refine .of_whole fun lane => ?_
    have whole := delivers.whole opened lane
    rw [idle] at whole
    have taken : ofLane lane subscriber.batch = subscriber.queue lane := ofLane_batch subscriber lane
    cases lane <;> simpa [inFlight, queue, taken] using whole

theorem Delivers.runWriter (delivers : subscriber.Delivers) (idle : subscriber.inFlight = []) :
    subscriber.runWriter.Delivers := by
  unfold Subscriber.runWriter
  split
  · rename_i closed
    exact ⟨delivers.sent, fun opened => absurd closed (by simp [show subscriber.closed = false from
      opened])⟩
  · rename_i opened
    split
    · exact delivers.takeBatch (Bool.eq_false_iff.mpr opened) idle
    · refine ⟨delivers.sent, fun opened lane => ?_⟩
      have whole := delivers.whole opened lane
      rw [idle] at whole
      exact whole

/-- One frame of the batch is sent. -/
theorem Delivers.sentOne (delivers : subscriber.Delivers) {size privateCount : Nat}
    {frame : Lane × φ} {rest : List (Lane × φ)}
    (stands : subscriber.writer = .sending size privateCount (frame :: rest))
    (opened : subscriber.closed = false) (lane : Lane) :
    ofLane lane subscriber.accepted = ofLane lane (subscriber.socket ++ [frame]) ++
      ofLane lane rest ++ subscriber.queue lane := by
  rw [delivers.whole opened lane, inFlight, stands, ofLane_append, ofLane_cons]
  simp

theorem Delivers.written (orderly : subscriber.Orderly) (delivers : subscriber.Delivers) :
    subscriber.written.Delivers := by
  have opened : subscriber.Sending → subscriber.closed = false := by
    rintro ⟨size, privateCount, rest, stands⟩
    rw [← Bool.not_eq_true, orderly.running, stands]
    simp
  obtain ⟨same, -⟩ | ⟨size, privateCount, frame, rest, -, stands, now⟩ |
    ⟨size, privateCount, frame, stands, now⟩ := written_cases orderly
  · rw [same]
    exact delivers
  · rw [now]
    exact .of_whole fun lane => delivers.sentOne stands (opened ⟨_, _, _, stands⟩) lane
  · have next : subscriber.written =
        { subscriber.finished size privateCount frame with writer := .waiting }.runWriter := now
    rw [next]
    refine Delivers.runWriter (.of_whole fun lane => ?_) rfl
    exact delivers.sentOne stands (opened ⟨_, _, _, stands⟩) lane

theorem Delivers.accept (delivers : subscriber.Delivers) {lane : Lane} {frame : φ}
    {after : Subscriber φ} (sockets : after.socket = subscriber.socket)
    (accepted : after.accepted = subscriber.accepted ++ [(lane, frame)])
    (inFlight : after.inFlight = subscriber.inFlight) (opened : subscriber.closed = false)
    (queued : ∀ other, after.queue other = subscriber.queue other ++ ofLane other [(lane, frame)]) :
    after.Delivers := by
  refine .of_whole fun other => ?_
  rw [accepted, sockets, inFlight, queued, ofLane_append, delivers.whole opened other]
  simp only [List.append_assoc]

theorem Delivers.step (orderly : subscriber.Orderly) (delivers : subscriber.Delivers)
    (move : Move φ) : (subscriber.step move).Delivers := by
  cases move with
  | offerMarket frame =>
      simp only [Subscriber.step, Subscriber.offerMarket]
      split
      · exact delivers
      · rename_i opened
        split
        · exact ⟨delivers.sent, delivers.whole⟩
        · refine delivers.accept rfl rfl rfl (Bool.eq_false_iff.mpr opened) fun other => ?_
          cases other <;> simp [queue, ofLane]
  | offerPrivate frame =>
      simp only [Subscriber.step, Subscriber.offerPrivate]
      split
      · exact delivers
      · rename_i opened
        split
        · exact ⟨delivers.sent, delivers.whole⟩
        · refine delivers.accept rfl rfl rfl (Bool.eq_false_iff.mpr opened) fun other => ?_
          cases other <;> simp [queue, ofLane, handOver]
  | subscribe _ => exact ⟨delivers.sent, delivers.whole⟩
  | unsubscribe _ => exact ⟨delivers.sent, delivers.whole⟩
  | takeFresh => exact ⟨delivers.sent, delivers.whole⟩
  | flush =>
      simp only [Subscriber.step, Subscriber.flush]
      split
      · exact delivers
      · exact ⟨delivers.sent, delivers.whole⟩
  | resume =>
      simp only [Subscriber.step, Subscriber.resume]
      split
      · rename_i stands
        split
        · refine delivers.takeBatch (orderly.opened_of_waiting stands) ?_
          simp only [inFlight, stands]
        · exact delivers
      · exact delivers
  | written => exact delivers.written orderly
  | broken =>
      simp only [Subscriber.step, Subscriber.broken]
      split
      · exact ⟨delivers.sent, by simp⟩
      · exact delivers
  | stop => exact ⟨delivers.sent, by simp [Subscriber.step, stop]⟩

/-! ## A writer given its turns -/

/-- The writer's next turn. -/
def turn (subscriber : Subscriber φ) : Subscriber φ :=
  match subscriber.writer with
  | .waiting => subscriber.resume
  | .sending _ _ _ => subscriber.written
  | .ended => subscriber

def turns (subscriber : Subscriber φ) : Nat → Subscriber φ
  | 0 => subscriber
  | count + 1 => subscriber.turn.turns count

/-- What the writer still has to do: queued frames are taken once and sent once. -/
def owed (subscriber : Subscriber φ) : Nat :=
  2 * subscriber.batch.length + subscriber.inFlight.length

/-- Every private frame is out of the queue and out of the writer's hands. -/
def Drained (subscriber : Subscriber φ) : Prop :=
  subscriber.inFlight = [] ∧ subscriber.privateQueue = []

theorem takeBatch_owed (queued : subscriber.batch ≠ []) :
    subscriber.takeBatch.owed = subscriber.batch.length ∧
      subscriber.takeBatch.closed = subscriber.closed ∧
      subscriber.takeBatch.accepted = subscriber.accepted := by
  rw [takeBatch_of_nonempty queued]
  exact ⟨by simp [owed, inFlight, batch], rfl, rfl⟩

/-- A turn leaves less to do, unless all private frames are sent. -/
theorem Orderly.turn_progress (orderly : subscriber.Orderly) (opened : subscriber.closed = false) :
    subscriber.Drained ∨ subscriber.turn.owed < subscriber.owed ∧
      subscriber.turn.closed = false ∧ subscriber.turn.accepted = subscriber.accepted := by
  cases stands : subscriber.writer with
  | waiting =>
      have idle : subscriber.inFlight = [] := by simp only [inFlight, stands]
      cases woken : subscriber.wake with
      | false =>
          refine .inl ⟨idle, by_contra fun queued => ?_⟩
          exact absurd (orderly.urgent opened queued) (by simp [woken])
      | true =>
          have queued := (orderly.handed opened woken).2
          have now : subscriber.turn = subscriber.takeBatch := by
            simp only [turn, stands, Subscriber.resume, woken, if_true]
          obtain ⟨less, closed, accepted⟩ := takeBatch_owed queued
          have some_ := List.length_pos_iff.mpr queued
          rw [now]
          exact .inr ⟨by rw [less, owed]; omega, closed.trans opened, accepted⟩
  | ended => exact absurd (orderly.running.mpr stands) (by simp [opened])
  | sending size privateCount left =>
      have now : subscriber.turn = subscriber.written := by simp only [turn, stands]
      rw [now]
      refine .inr ?_
      obtain ⟨-, still⟩ | ⟨size, privateCount, frame, rest, -, stands, now⟩ |
        ⟨size, privateCount, frame, stands, now⟩ := written_cases orderly
      · exact absurd ⟨size, privateCount, left, stands⟩ still
      · rw [now]
        exact ⟨by simp [owed, inFlight, stands, batch], opened, rfl⟩
      · rw [now, Subscriber.runWriter, if_neg (by simp [finished, opened])]
        have same : (subscriber.finished size privateCount frame).batch = subscriber.batch := rfl
        have one : subscriber.owed = 2 * subscriber.batch.length + 1 := by
          simp [owed, inFlight, stands]
        cases woken : subscriber.wake with
        | true =>
            obtain ⟨less, closed, accepted⟩ :=
              takeBatch_owed (same.symm ▸ (orderly.handed opened woken).2)
            rw [if_pos (by exact woken)]
            exact ⟨by rw [less, one, same]; omega, closed.trans opened, accepted⟩
        | false =>
            rw [if_neg (by simp [finished, woken])]
            exact ⟨by simp [owed, inFlight, finished, batch, stands], opened, rfl⟩

theorem Orderly.turn (orderly : subscriber.Orderly) : subscriber.turn.Orderly := by
  unfold Subscriber.turn
  split
  · exact orderly.resume
  · exact orderly.written
  · exact orderly

theorem Delivers.turn (orderly : subscriber.Orderly) (delivers : subscriber.Delivers) :
    subscriber.turn.Delivers := by
  unfold Subscriber.turn
  split
  · exact delivers.step orderly .resume
  · exact delivers.written orderly
  · exact delivers

/-- After enough turns every private frame accepted so far has been sent. -/
theorem Delivers.all_sent (orderly : subscriber.Orderly) (delivers : subscriber.Delivers)
    (opened : subscriber.closed = false) :
    ∃ count, ofLane .privateData (subscriber.turns count).socket =
      ofLane .privateData subscriber.accepted := by
  induction left : subscriber.owed using Nat.strong_induction_on generalizing subscriber with
  | _ left ih =>
      obtain ⟨idle, empty⟩ | ⟨less, still, same⟩ := orderly.turn_progress opened
      · refine ⟨0, ?_⟩
        rw [delivers.whole opened .privateData, idle]
        simp [turns, queue, empty]
      · obtain ⟨count, sent⟩ :=
          ih _ (left ▸ less) orderly.turn (delivers.turn orderly) still rfl
        exact ⟨count + 1, sent.trans (by rw [same])⟩

end Subscriber

end QuantArena.Fanout
