import Mathlib.Data.List.Forall2
import QuantArena.Foundations.Fault
import QuantArena.Foundations.Stream

/-! A reader that follows a stream of encoded entries. It decodes a read as a whole or not at all,
goes on after the last entry it has seen, and may fall back to a place it saved. -/

set_option autoImplicit false

namespace QuantArena.Foundations

variable {α β : Type}

/-- Decodes entry by entry, and stops with the first fault. -/
def decodeAll (decode : StreamId → α → Except Fault β) :
    List (StreamId × α) → Except Fault (List (StreamId × β))
  | [] => .ok []
  | entry :: rest => do
      let value ← decode entry.1 entry.2
      let later ← decodeAll decode rest
      .ok ((entry.1, value) :: later)

/-- Each entry beside what it decodes to, under the same id. -/
def Decoded (decode : StreamId → α → Except Fault β) :
    List (StreamId × α) → List (StreamId × β) → Prop :=
  List.Forall₂ fun entry item => item.1 = entry.1 ∧ decode entry.1 entry.2 = .ok item.2

variable {decode : StreamId → α → Except Fault β} {entries more : List (StreamId × α)}
  {items : List (StreamId × β)}

theorem decodeAll_eq_ok : decodeAll decode entries = .ok items ↔ Decoded decode entries items := by
  induction entries generalizing items with
  | nil =>
      constructor
      · intro decoded
        cases decoded
        exact .nil
      · intro decoded
        cases decoded
        rfl
  | cons entry rest ih =>
      rw [decodeAll, Fault.bind_eq_ok]
      constructor
      · intro decoded
        obtain ⟨value, first, decoded⟩ := decoded
        obtain ⟨later, others, same⟩ := Fault.bind_eq_ok.mp decoded
        cases same
        exact .cons ⟨rfl, first⟩ (ih.mp others)
      · intro decoded
        cases decoded with
        | @cons _ item _ later first others =>
            obtain ⟨same, first⟩ := first
            refine ⟨item.2, first, Fault.bind_eq_ok.mpr ⟨later, ih.mpr others, ?_⟩⟩
            rw [← same]

theorem Decoded.append {others : List (StreamId × β)} (first : Decoded decode entries items)
    (second : Decoded decode more others) : Decoded decode (entries ++ more) (items ++ others) := by
  induction first with
  | nil => exact second
  | cons head _ ih => exact .cons head ih

theorem Decoded.ids (decoded : Decoded decode entries items) :
    items.map (·.1) = entries.map (·.1) := by
  induction decoded with
  | nil => rfl
  | cons head _ ih => rw [List.map_cons, List.map_cons, ih, head.1]

theorem Decoded.length_eq (decoded : Decoded decode entries items) :
    items.length = entries.length := by
  have ids := congrArg List.length decoded.ids
  rwa [List.length_map, List.length_map] at ids

/-- Where a reader stands after a batch depends on its ids alone. -/
theorem Stream.reached_congr {one : List (StreamId × α)} {other : List (StreamId × β)}
    (ids : one.map (·.1) = other.map (·.1)) (before : StreamId) :
    Stream.reached one before = Stream.reached other before := by
  have last := congrArg List.getLast? ids
  rw [List.getLast?_map, List.getLast?_map] at last
  unfold Stream.reached
  cases left : one.getLast? with
  | none =>
      cases right : other.getLast? with
      | none => rfl
      | some entry =>
          rw [left, right] at last
          cases last
  | some item =>
      cases right : other.getLast? with
      | none =>
          rw [left, right] at last
          cases last
      | some entry =>
          rw [left, right] at last
          exact Option.some.inj last

theorem Decoded.reached (decoded : Decoded decode entries items) (before : StreamId) :
    Stream.reached items before = Stream.reached entries before :=
  Stream.reached_congr decoded.ids before

theorem exists_decoded (all : ∀ entry ∈ entries, ∃ value, decode entry.1 entry.2 = .ok value) :
    ∃ items, Decoded decode entries items := by
  induction entries with
  | nil => exact ⟨[], .nil⟩
  | cons entry rest ih =>
      obtain ⟨value, first⟩ := all entry List.mem_cons_self
      obtain ⟨items, others⟩ := ih fun other member => all other (List.mem_cons_of_mem _ member)
      exact ⟨(entry.1, value) :: items, .cons ⟨rfl, first⟩ others⟩

/-! ## The reader -/

/-- The stream, where its reader stands, and what the reader has made of it. -/
structure Tail (α β : Type) where
  stream : Stream α
  lastId : StreamId
  seen : List (StreamId × β)
  saved : StreamId × List (StreamId × β)

namespace Tail

inductive Move (α : Type) where
  | append (now : Nat) (records : List α)
  | read (count : Nat)
  | save
  | restart

def start : Tail α β := ⟨.empty, .start, [], .start, []⟩

/-- A read that raises leaves the reader where it was. -/
def step (decode : StreamId → α → Except Fault β) (tail : Tail α β) : Move α → Tail α β
  | .append now records => { tail with stream := tail.stream.appendAll now records }
  | .read count =>
      match decodeAll decode (tail.stream.read tail.lastId count) with
      | .error _ => tail
      | .ok items => { tail with
          lastId := Stream.reached items tail.lastId
          seen := tail.seen ++ items }
  | .save => { tail with saved := (tail.lastId, tail.seen) }
  | .restart => { tail with lastId := tail.saved.1, seen := tail.saved.2 }

def run (decode : StreamId → α → Except Fault β) (tail : Tail α β) (moves : List (Move α)) :
    Tail α β := moves.foldl (step decode) tail

/-- A place, and what was seen up to it: the first `count` entries, decoded. -/
structure Stands (decode : StreamId → α → Except Fault β) (stream : Stream α) (lastId : StreamId)
    (seen : List (StreamId × β)) (count : Nat) : Prop where
  within : count ≤ stream.entries.length
  place : lastId = stream.position count
  decoded : Decoded decode (stream.entries.take count) seen

structure Follows (decode : StreamId → α → Except Fault β) (tail : Tail α β) : Prop where
  reader : ∃ count, Stands decode tail.stream tail.lastId tail.seen count
  saved : ∃ count, Stands decode tail.stream tail.saved.1 tail.saved.2 count

variable {tail : Tail α β} {stream : Stream α} {lastId : StreamId} {seen : List (StreamId × β)}
  {count : Nat}

theorem start_stands : Stands decode (.empty : Stream α) .start ([] : List (StreamId × β)) 0 where
  within := le_rfl
  place := rfl
  decoded := .nil

theorem start_follows : (start : Tail α β).Follows decode :=
  ⟨⟨0, start_stands⟩, ⟨0, start_stands⟩⟩

theorem Stands.append (stands : Stands decode stream lastId seen count) (now : Nat)
    (records : List α) : Stands decode (stream.appendAll now records) lastId seen count := by
  have grows := stream.entries_appendAll now records
  refine ⟨stands.within.trans grows.length_le, ?_, ?_⟩
  · rw [Stream.position_grows grows stands.within]
    exact stands.place
  · obtain ⟨later, whole⟩ := grows
    rw [← whole, List.take_append_of_le_length stands.within]
    exact stands.decoded

/-- One read, of entries that all decode. -/
theorem Stands.read {limit : Nat} (stands : Stands decode stream lastId seen count)
    (decoded : decodeAll decode (stream.read lastId limit) = .ok items) :
    Stands decode stream (Stream.reached items lastId) (seen ++ items) (count + items.length) := by
  rw [stands.place, Stream.read_position] at decoded
  have decoded := decodeAll_eq_ok.mp decoded
  have front : (stream.entries.drop count).take limit <+: stream.entries.drop count :=
    List.take_prefix _ _
  have length := decoded.length_eq
  have fits := front.length_le
  rw [List.length_drop] at fits
  have within := stands.within
  refine ⟨by omega, ?_, ?_⟩
  · rw [decoded.reached, length, stands.place]
    exact (stream.position_add front within).symm
  · have split : stream.entries.take (count + items.length) = stream.entries.take count ++
        (stream.entries.drop count).take limit := by
      rw [List.take_add, length, ← List.prefix_iff_eq_take.mp front]
    rw [split]
    exact stands.decoded.append decoded

theorem step_read (tail : Tail α β) {limit : Nat}
    (decoded : decodeAll decode (tail.stream.read tail.lastId limit) = .ok items) :
    tail.step decode (.read limit) = { tail with
      lastId := Stream.reached items tail.lastId
      seen := tail.seen ++ items } := by
  simp only [step, decoded]

theorem step_refused (tail : Tail α β) {limit : Nat} {fault : Fault}
    (refused : decodeAll decode (tail.stream.read tail.lastId limit) = .error fault) :
    tail.step decode (.read limit) = tail := by
  simp only [step, refused]

theorem Follows.step (follows : tail.Follows decode) (move : Move α) :
    (tail.step decode move).Follows decode := by
  obtain ⟨⟨count, stands⟩, ⟨earlier, saved⟩⟩ := follows
  cases move with
  | append now records => exact ⟨⟨count, stands.append now records⟩, ⟨earlier, saved.append now records⟩⟩
  | read limit =>
      cases decoded : decodeAll decode (tail.stream.read tail.lastId limit) with
      | error fault =>
          rw [tail.step_refused decoded]
          exact ⟨⟨count, stands⟩, ⟨earlier, saved⟩⟩
      | ok items =>
          rw [tail.step_read decoded]
          exact ⟨⟨count + items.length, stands.read decoded⟩, ⟨earlier, saved⟩⟩
  | save => exact ⟨⟨count, stands⟩, ⟨count, stands⟩⟩
  | restart => exact ⟨⟨earlier, saved⟩, ⟨earlier, saved⟩⟩

/-- Whatever happens, the reader has seen the first entries, each of them once. -/
theorem Follows.run (follows : tail.Follows decode) (moves : List (Move α)) :
    (tail.run decode moves).Follows decode := by
  induction moves generalizing tail with
  | nil => exact follows
  | cons move rest ih => exact ih (follows.step move)

/-- Where everything decodes, a read that asks for something moves on unless all was seen. -/
theorem Stands.advance (stands : Stands decode tail.stream tail.lastId tail.seen count)
    (all : ∀ entry ∈ tail.stream.entries, ∃ value, decode entry.1 entry.2 = .ok value)
    {limit : Nat} (asks : 0 < limit) :
    ∃ later items, tail.step decode (.read limit) = { tail with
          lastId := Stream.reached items tail.lastId
          seen := tail.seen ++ items } ∧
      Stands decode tail.stream (Stream.reached items tail.lastId) (tail.seen ++ items) later ∧
      (later = tail.stream.entries.length ∨ count < later) := by
  have read : ∀ entry ∈ tail.stream.read tail.lastId limit,
      ∃ value, decode entry.1 entry.2 = .ok value := fun entry member =>
    all entry (List.mem_of_mem_filter (List.mem_of_mem_take member))
  obtain ⟨items, decoded⟩ := exists_decoded read
  have length := decoded.length_eq
  have taken := decodeAll_eq_ok.mpr decoded
  rw [stands.place, Stream.read_position, List.length_take, List.length_drop] at length
  have within := stands.within
  exact ⟨count + items.length, items, tail.step_read taken, stands.read taken, by omega⟩

/-- As many reads as there are entries see all of them. -/
theorem Stands.all_seen (stands : Stands decode tail.stream tail.lastId tail.seen count)
    (all : ∀ entry ∈ tail.stream.entries, ∃ value, decode entry.1 entry.2 = .ok value)
    {limits : List Nat} (ask : ∀ limit ∈ limits, 0 < limit)
    (enough : tail.stream.entries.length ≤ count + limits.length) :
    Decoded decode tail.stream.entries (tail.run decode (limits.map .read)).seen := by
  induction limits generalizing tail count with
  | nil =>
      have whole : count = tail.stream.entries.length := le_antisymm stands.within enough
      have seen := stands.decoded
      rwa [whole, List.take_length] at seen
  | cons limit rest ih =>
      obtain ⟨asks, others⟩ := List.forall_mem_cons.mp ask
      obtain ⟨later, items, moved, reached, further⟩ := stands.advance all asks
      rw [List.length_cons] at enough
      have left : tail.stream.entries.length ≤ later + rest.length := by omega
      rw [List.map_cons, run, List.foldl_cons, moved]
      exact @ih { tail with
        lastId := Stream.reached items tail.lastId
        seen := tail.seen ++ items } later reached all others left

end Tail

end QuantArena.Foundations
