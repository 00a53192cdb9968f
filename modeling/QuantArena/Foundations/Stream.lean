import Mathlib.Data.List.TakeDrop
import Mathlib.Data.Prod.Lex

/-! An append-only stream whose entries are numbered by a clock and a counter, and
that readers follow by the last id they have seen. -/

set_option autoImplicit false

namespace QuantArena.Foundations

/-- Milliseconds and an ordinal within them, compared in that order. -/
abbrev StreamId := Nat ×ₗ Nat

namespace StreamId

/-- `0-0`, before every entry. -/
def start : StreamId := toLex (0, 0)

/-- The id of the next entry: the clock if it has moved on, else the next ordinal. -/
def next (last : StreamId) (now : Nat) : StreamId :=
  if (ofLex last).1 < now then toLex (now, 0)
  else toLex ((ofLex last).1, (ofLex last).2 + 1)

theorem start_le (id : StreamId) : start ≤ id := by
  rcases (Nat.zero_le (ofLex id).1).lt_or_eq with later | same
  · exact Prod.Lex.le_iff.mpr (.inl later)
  · exact Prod.Lex.le_iff.mpr (.inr ⟨same, Nat.zero_le _⟩)

theorem lt_next (last : StreamId) (now : Nat) : last < last.next now := by
  unfold next
  split
  · rename_i later
    exact Prod.Lex.lt_iff.mpr (.inl later)
  · exact Prod.Lex.lt_iff.mpr (.inr ⟨rfl, Nat.lt_succ_self _⟩)

end StreamId

structure Stream (α : Type) where
  entries : List (StreamId × α)
  ascending : entries.Pairwise fun early late => early.1 < late.1
  positive : ∀ entry ∈ entries, StreamId.start < entry.1

namespace Stream

variable {α : Type}

def empty : Stream α := ⟨[], List.Pairwise.nil, by simp⟩

def records (stream : Stream α) : List α := stream.entries.map (·.2)

/-- The id of the last entry, or `0-0`. -/
def lastId (stream : Stream α) : StreamId :=
  match stream.entries.getLast? with
  | some entry => entry.1
  | none => .start

theorem le_lastId (stream : Stream α) : ∀ entry ∈ stream.entries, entry.1 ≤ stream.lastId := by
  intro entry member
  unfold lastId
  cases last : stream.entries.getLast? with
  | none => simp [List.getLast?_eq_none_iff.mp last] at member
  | some newest =>
      obtain ⟨before, split⟩ := List.getLast?_eq_some_iff.mp last
      have ordered := stream.ascending
      rw [split] at ordered member
      cases List.mem_append.mp member with
      | inl old => exact ((List.pairwise_append.mp ordered).2.2 entry old newest (by simp)).le
      | inr same => rw [List.mem_singleton.mp same]

def append (stream : Stream α) (now : Nat) (record : α) : Stream α where
  entries := stream.entries ++ [(stream.lastId.next now, record)]
  ascending := by
    refine List.pairwise_append.mpr ⟨stream.ascending, List.pairwise_singleton _ _, ?_⟩
    intro entry member new newMember
    rw [List.mem_singleton.mp newMember]
    exact lt_of_le_of_lt (stream.le_lastId entry member) (StreamId.lt_next _ _)
  positive := by
    intro entry member
    cases List.mem_append.mp member with
    | inl old => exact stream.positive entry old
    | inr new =>
        rw [List.mem_singleton.mp new]
        exact lt_of_le_of_lt (StreamId.start_le _) (StreamId.lt_next _ _)

/-- Several records in one transaction. -/
def appendAll (stream : Stream α) (now : Nat) (records : List α) : Stream α :=
  records.foldl (fun stream record => stream.append now record) stream

/-- At most `count` entries after an id. -/
def read (stream : Stream α) (after : StreamId) (count : Nat) : List (StreamId × α) :=
  (stream.entries.filter fun entry => after < entry.1).take count

/-- The id of the `count`th entry: where a reader of that many stands. -/
def position (stream : Stream α) (count : Nat) : StreamId :=
  match (stream.entries.take count).getLast? with
  | some entry => entry.1
  | none => .start

@[simp] theorem records_append (stream : Stream α) (now : Nat) (record : α) :
    (stream.append now record).records = stream.records ++ [record] := by
  simp [append, records]

@[simp] theorem records_appendAll (stream : Stream α) (now : Nat) (records : List α) :
    (stream.appendAll now records).records = stream.records ++ records := by
  induction records generalizing stream with
  | nil => simp [appendAll]
  | cons record rest ih =>
      rw [appendAll, List.foldl_cons, ← appendAll, ih, records_append]
      simp

@[simp] theorem length_records (stream : Stream α) :
    stream.records.length = stream.entries.length := List.length_map ..

@[simp] theorem position_zero (stream : Stream α) : stream.position 0 = .start := rfl

theorem position_length (stream : Stream α) :
    stream.position stream.entries.length = stream.lastId := by
  rw [position, List.take_length]
  rfl

/-- A reader's place does not move when the stream grows. -/
theorem position_grows {shorter longer : Stream α} (grows : shorter.entries <+: longer.entries)
    {count : Nat} (within : count ≤ shorter.entries.length) :
    longer.position count = shorter.position count := by
  obtain ⟨more, whole⟩ := grows
  rw [position, position, ← whole, List.take_append_of_le_length within]

theorem entries_append (stream : Stream α) (now : Nat) (record : α) :
    stream.entries <+: (stream.append now record).entries := ⟨_, rfl⟩

theorem entries_appendAll (stream : Stream α) (now : Nat) (records : List α) :
    stream.entries <+: (stream.appendAll now records).entries := by
  induction records generalizing stream with
  | nil => exact List.prefix_refl _
  | cons record rest ih => exact (entries_append stream now record).trans (ih _)

/-- A place lies after the entries that were seen and before the others. -/
theorem position_splits (stream : Stream α) (seen : Nat) :
    (∀ entry ∈ stream.entries.take seen, entry.1 ≤ stream.position seen) ∧
      ∀ entry ∈ stream.entries.drop seen, stream.position seen < entry.1 := by
  have split : stream.entries.take seen ++ stream.entries.drop seen = stream.entries :=
    List.take_append_drop ..
  have ordered := stream.ascending
  rw [← split, List.pairwise_append] at ordered
  constructor
  · intro entry member
    rw [position]
    cases last : (stream.entries.take seen).getLast? with
    | none => simp [List.getLast?_eq_none_iff.mp last] at member
    | some newest =>
        obtain ⟨older, whole⟩ := List.getLast?_eq_some_iff.mp last
        have early := ordered.1
        rw [whole] at early member
        cases List.mem_append.mp member with
        | inl old => exact ((List.pairwise_append.mp early).2.2 entry old newest (by simp)).le
        | inr same => rw [List.mem_singleton.mp same]
  · intro entry member
    rw [position]
    cases last : (stream.entries.take seen).getLast? with
    | none => exact stream.positive entry (List.mem_of_mem_drop member)
    | some newest => exact ordered.2.2 newest (List.mem_of_getLast? last) entry member

theorem position_eq_start_or_mem (stream : Stream α) (seen : Nat) :
    stream.position seen = .start ∨ ∃ entry ∈ stream.entries.take seen,
      entry.1 = stream.position seen := by
  rw [position]
  cases last : (stream.entries.take seen).getLast? with
  | none => exact .inl rfl
  | some newest => exact .inr ⟨newest, List.mem_of_getLast? last, rfl⟩

theorem position_mono (stream : Stream α) {seen later : Nat} (le : seen ≤ later) :
    stream.position seen ≤ stream.position later := by
  obtain start | ⟨entry, member, same⟩ := stream.position_eq_start_or_mem seen
  · exact start ▸ StreamId.start_le _
  · exact same ▸ (stream.position_splits later).1 entry
      (List.take_subset_take_left stream.entries le member)

theorem position_le_lastId (stream : Stream α) (seen : Nat) :
    stream.position seen ≤ stream.lastId := by
  obtain start | ⟨entry, member, same⟩ := stream.position_eq_start_or_mem seen
  · exact start ▸ StreamId.start_le _
  · exact same ▸ stream.le_lastId entry (List.mem_of_mem_take member)

theorem lastId_mono {shorter longer : Stream α} (grows : shorter.entries <+: longer.entries) :
    shorter.lastId ≤ longer.lastId := by
  rw [← position_length, ← position_length, ← position_grows grows le_rfl]
  exact longer.position_mono grows.length_le

/-- What lies up to a reader's place is what it has seen. -/
theorem filter_le_position (stream : Stream α) (seen : Nat) :
    stream.entries.filter (fun entry => entry.1 ≤ stream.position seen) =
      stream.entries.take seen := by
  obtain ⟨before, later⟩ := stream.position_splits seen
  conv_lhs => rw [← List.take_append_drop seen stream.entries]
  rw [List.filter_append, List.filter_eq_self.mpr (by simpa using before),
    List.filter_eq_nil_iff.mpr (by simpa using later), List.append_nil]

/-- What lies after a reader's place is what it has not seen. -/
theorem filter_position_lt (stream : Stream α) (seen : Nat) :
    stream.entries.filter (fun entry => stream.position seen < entry.1) =
      stream.entries.drop seen := by
  obtain ⟨before, later⟩ := stream.position_splits seen
  conv_lhs => rw [← List.take_append_drop seen stream.entries]
  rw [List.filter_append, List.filter_eq_nil_iff.mpr (by simpa using before),
    List.filter_eq_self.mpr (by simpa using later), List.nil_append]

/-- A reader who has seen `seen` entries is given the next ones. -/
theorem read_position (stream : Stream α) (seen count : Nat) :
    stream.read (stream.position seen) count = (stream.entries.drop seen).take count := by
  rw [read, filter_position_lt]

/-- The id a reader remembers after a batch: its last one, or the one it had. -/
def reached (batch : List (StreamId × α)) (before : StreamId) : StreamId :=
  match batch.getLast? with
  | some entry => entry.1
  | none => before

theorem position_add (stream : Stream α) {seen : Nat} {batch : List (StreamId × α)}
    (read : batch <+: stream.entries.drop seen) (within : seen ≤ stream.entries.length) :
    stream.position (seen + batch.length) = reached batch (stream.position seen) := by
  obtain ⟨rest, split⟩ := read
  have whole : stream.entries = (stream.entries.take seen ++ batch) ++ rest := by
    rw [List.append_assoc, split, List.take_append_drop]
  have length : (stream.entries.take seen ++ batch).length = seen + batch.length := by
    simp [Nat.min_eq_left within]
  have taken : stream.entries.take (seen + batch.length) = stream.entries.take seen ++ batch := by
    conv_lhs => rw [whole]
    exact List.take_left' length
  rw [position, taken, List.getLast?_append, reached, position]
  cases batch.getLast? <;> rfl

end Stream

end QuantArena.Foundations
