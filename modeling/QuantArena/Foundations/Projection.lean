import QuantArena.Foundations.Fault
import QuantArena.Foundations.Stream

/-! A state that a process folds out of a stream, saves now and then, and takes up again after a
crash. -/

set_option autoImplicit false

namespace QuantArena.Foundations

/-- How a reader makes its state, dumps it, and loads a dump that goes with a place. -/
structure Projection (σ α κ : Type) where
  fresh : σ
  apply : σ → StreamId × α → σ
  dump : σ → κ
  load : StreamId → κ → Option σ

namespace Projection

variable {σ α κ : Type}

def fold (projection : Projection σ α κ) (entries : List (StreamId × α)) : σ :=
  entries.foldl projection.apply projection.fresh

/-- `alike` states go on alike, and a dump loads as one of them. -/
structure Lawful (projection : Projection σ α κ) (alike : σ → σ → Prop) : Prop where
  refl : ∀ state, alike state state
  trans : ∀ {one two three}, alike one two → alike two three → alike one three
  apply : ∀ {left right} entry, alike left right →
    alike (projection.apply left entry) (projection.apply right entry)
  reload : ∀ {state entries}, alike state (projection.fold entries) →
    ∃ loaded, projection.load (Stream.reached entries .start) (projection.dump state) =
      some loaded ∧ alike loaded (projection.fold entries)

/-- Reads and applies until a read comes back empty, cut off after `rounds` reads. -/
def replay (projection : Projection σ α κ) (stream : Stream α) (limit : Nat) :
    Nat → σ → StreamId → Except Fault (σ × StreamId)
  | 0, _, _ => .error .diverged
  | rounds + 1, state, lastId =>
      let batch := stream.read lastId limit
      if batch.isEmpty then .ok (state, lastId)
      else replay projection stream limit rounds (batch.foldl projection.apply state)
        (Stream.reached batch lastId)

/-- Where a new process takes up: at its checkpoint, if that can be read, or at the start. -/
def resume (projection : Projection σ α κ) : Option (StreamId × κ) → Option (σ × StreamId)
  | none => some (projection.fresh, .start)
  | some saved => (projection.load saved.1 saved.2).map fun state => (state, saved.1)

/-- Each read of the stream yields something new, so its length bounds the reads. -/
def recover (projection : Projection σ α κ) (stream : Stream α) (limit : Nat)
    (saved : Option (StreamId × κ)) : Option (σ × StreamId) := do
  let (state, lastId) ← projection.resume saved
  (projection.replay stream limit (stream.entries.length + 1) state lastId).toOption

/-! ## What a reader has seen -/

/-- A state and a place that both are those of the first `count` entries. -/
structure Stands (projection : Projection σ α κ) (alike : σ → σ → Prop) (stream : Stream α)
    (state : σ) (lastId : StreamId) (count : Nat) : Prop where
  within : count ≤ stream.entries.length
  place : lastId = stream.position count
  alike : alike state (projection.fold (stream.entries.take count))

/-- A checkpoint is the dump of some earlier state, with its place. -/
def Saved (projection : Projection σ α κ) (alike : σ → σ → Prop) (stream : Stream α)
    (saved : Option (StreamId × κ)) : Prop :=
  ∀ place text, saved = some (place, text) → ∃ state count,
    projection.Stands alike stream state place count ∧ text = projection.dump state

variable {projection : Projection σ α κ} {alike : σ → σ → Prop} {stream longer : Stream α}
  {state : σ} {lastId : StreamId} {count : Nat} {checkpoint : Option (StreamId × κ)}

theorem fold_append (projection : Projection σ α κ) (before after : List (StreamId × α)) :
    projection.fold (before ++ after) = after.foldl projection.apply (projection.fold before) :=
  List.foldl_append

theorem Lawful.foldl (lawful : projection.Lawful alike) {left right : σ} (same : alike left right)
    (entries : List (StreamId × α)) :
    alike (entries.foldl projection.apply left) (entries.foldl projection.apply right) := by
  induction entries generalizing left right with
  | nil => exact same
  | cons entry rest ih => exact ih (lawful.apply entry same)

theorem Lawful.fresh_stands (lawful : projection.Lawful alike) (stream : Stream α) :
    projection.Stands alike stream projection.fresh .start 0 :=
  ⟨Nat.zero_le _, rfl, lawful.refl _⟩

theorem Stands.grows (stands : projection.Stands alike stream state lastId count)
    (grows : stream.entries <+: longer.entries) :
    projection.Stands alike longer state lastId count := by
  refine ⟨stands.within.trans grows.length_le, ?_, ?_⟩
  · rw [Stream.position_grows grows stands.within]
    exact stands.place
  · obtain ⟨later, whole⟩ := grows
    rw [← whole, List.take_append_of_le_length stands.within]
    exact stands.alike

theorem Saved.grows (held : projection.Saved alike stream checkpoint)
    (grows : stream.entries <+: longer.entries) : projection.Saved alike longer checkpoint := by
  intro place text same
  obtain ⟨state, count, stands, dumped⟩ := held place text same
  exact ⟨state, count, stands.grows grows, dumped⟩

theorem saved_none : projection.Saved alike stream none := fun place text same => by cases same

theorem Stands.saved (stands : projection.Stands alike stream state lastId count) :
    projection.Saved alike stream (some (lastId, projection.dump state)) := by
  intro place text same
  cases same
  exact ⟨state, count, stands, rfl⟩

theorem Stands.front (stands : projection.Stands alike stream state lastId count) (limit : Nat) :
    stream.read lastId limit <+: stream.entries.drop count := by
  rw [stands.place, stream.read_position]
  exact List.take_prefix _ _

/-- A read takes up where the entries that were seen end. -/
theorem Stands.taken (stands : projection.Stands alike stream state lastId count) (limit : Nat) :
    stream.entries.take (count + (stream.read lastId limit).length) =
      stream.entries.take count ++ stream.read lastId limit := by
  rw [List.take_add, ← List.prefix_iff_eq_take.mp (stands.front limit)]

theorem Stands.read (lawful : projection.Lawful alike)
    (stands : projection.Stands alike stream state lastId count) (limit : Nat) :
    projection.Stands alike stream ((stream.read lastId limit).foldl projection.apply state)
      (Stream.reached (stream.read lastId limit) lastId)
      (count + (stream.read lastId limit).length) := by
  have front := stands.front limit
  have taken := stands.taken limit
  generalize stream.read lastId limit = batch at front taken
  have fits := front.length_le
  rw [List.length_drop] at fits
  have within := stands.within
  refine ⟨by omega, ?_, ?_⟩
  · rw [stands.place]
    exact (stream.position_add front within).symm
  · rw [taken, fold_append]
    exact lawful.foldl stands.alike batch

/-! ## Recovery -/

theorem Stands.replay (lawful : projection.Lawful alike) {limit : Nat} (asks : 0 < limit)
    {rounds : Nat} (stands : projection.Stands alike stream state lastId count)
    (enough : stream.entries.length < count + rounds) :
    ∃ final, projection.replay stream limit rounds state lastId = .ok (final, stream.lastId) ∧
      projection.Stands alike stream final stream.lastId stream.entries.length := by
  induction rounds generalizing state lastId count with
  | zero =>
      have within := stands.within
      omega
  | succ rounds ih =>
      have read := stream.read_position count limit
      rw [← stands.place] at read
      have next := stands.read lawful limit
      rw [Projection.replay]
      cases batch : stream.read lastId limit with
      | nil =>
          have length := congrArg List.length read
          rw [batch, List.length_take, List.length_drop, List.length_nil] at length
          have whole : count = stream.entries.length := by
            have within := stands.within
            omega
          have last : lastId = stream.lastId := by
            rw [stands.place, whole, stream.position_length]
          rw [last, whole] at stands
          rw [last]
          exact ⟨state, rfl, stands⟩
      | cons entry rest =>
          rw [batch, List.length_cons] at next
          exact ih next (by omega)

theorem Saved.resume (lawful : projection.Lawful alike)
    (held : projection.Saved alike stream checkpoint) :
    ∃ state lastId count, projection.resume checkpoint = some (state, lastId) ∧
      projection.Stands alike stream state lastId count := by
  cases checkpoint with
  | none => exact ⟨_, _, 0, rfl, lawful.fresh_stands stream⟩
  | some saved =>
      obtain ⟨state, count, stands, dumped⟩ := held saved.1 saved.2 rfl
      obtain ⟨loaded, read, same⟩ := lawful.reload stands.alike
      have place : saved.1 = Stream.reached (stream.entries.take count) .start := stands.place
      refine ⟨loaded, saved.1, count, ?_, ⟨stands.within, stands.place, same⟩⟩
      rw [Projection.resume, dumped, place, read]
      rfl

/-- A recovery reads to the end of the stream, whatever the checkpoint. -/
theorem Saved.recover (lawful : projection.Lawful alike) {limit : Nat} (asks : 0 < limit)
    (held : projection.Saved alike stream checkpoint) :
    ∃ final, projection.recover stream limit checkpoint = some (final, stream.lastId) ∧
      projection.Stands alike stream final stream.lastId stream.entries.length := by
  obtain ⟨state, lastId, count, resumed, stands⟩ := held.resume lawful
  obtain ⟨final, replayed, whole⟩ := stands.replay lawful asks
    (Nat.lt_of_lt_of_le (Nat.lt_succ_self _) (Nat.le_add_left _ count))
  refine ⟨final, ?_, whole⟩
  rw [Projection.recover, resumed]
  simp only [Option.bind_eq_bind, Option.bind_some, replayed, Except.toOption]

end Projection

end QuantArena.Foundations
