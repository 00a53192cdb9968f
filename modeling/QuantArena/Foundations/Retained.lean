import Mathlib.Data.List.TakeWhile
import QuantArena.Foundations.Stream

/-! A stream that may have lost its oldest entries, with the whole history that was ever
appended to it. -/

set_option autoImplicit false

namespace QuantArena.Foundations

structure Retained (α : Type) where
  history : Stream α
  /-- How many of the oldest entries are gone. -/
  removed : Nat
  within : removed ≤ history.entries.length

namespace Retained

variable {α : Type}

def empty : Retained α := ⟨.empty, 0, le_rfl⟩

/-- A stream of which nothing is gone. -/
def whole (history : Stream α) : Retained α := ⟨history, 0, Nat.zero_le _⟩

def entries (stream : Retained α) : List (StreamId × α) :=
  stream.history.entries.drop stream.removed

def append (stream : Retained α) (now : Nat) (record : α) : Retained α where
  history := stream.history.append now record
  removed := stream.removed
  within := stream.within.trans (Stream.entries_append ..).length_le

def appendAll (stream : Retained α) (now : Nat) (records : List α) : Retained α where
  history := stream.history.appendAll now records
  removed := stream.removed
  within := stream.within.trans (Stream.entries_appendAll ..).length_le

/-- Removes oldest entries: only such as have a lower id, and no more than `count`. -/
def trim (stream : Retained α) (minId : StreamId) (count : Nat) : Retained α where
  history := stream.history
  removed := stream.removed +
    min count (stream.entries.takeWhile fun entry => entry.1 < minId).length
  within := by
    have lower := (List.takeWhile_prefix (l := stream.entries) fun entry => entry.1 < minId).length_le
    have length : stream.entries.length = stream.history.entries.length - stream.removed :=
      List.length_drop ..
    have within := stream.within
    omega

theorem history_trim (stream : Retained α) (minId : StreamId) (count : Nat) :
    (stream.trim minId count).history = stream.history := rfl

theorem entries_of_whole {stream : Retained α} (whole : stream.removed = 0) :
    stream.entries = stream.history.entries := by
  rw [entries, whole, List.drop_zero]

theorem entries_append (stream : Retained α) (now : Nat) (record : α) :
    stream.entries <+: (stream.append now record).entries := by
  obtain ⟨more, whole⟩ := Stream.entries_append stream.history now record
  refine ⟨more, ?_⟩
  rw [entries, entries, append, ← whole, List.drop_append_of_le_length stream.within]

theorem ascending (stream : Retained α) :
    stream.entries.Pairwise fun early late => early.1 < late.1 :=
  stream.history.ascending.drop

/-- What is not older than an entry that was kept was kept as well. -/
theorem mem_entries_of_le {stream : Retained α} {kept entry : StreamId × α}
    (keptMember : kept ∈ stream.entries) (member : entry ∈ stream.history.entries)
    (newer : kept.1 ≤ entry.1) : entry ∈ stream.entries := by
  have split := List.take_append_drop stream.removed stream.history.entries
  have ordered := stream.history.ascending
  rw [← split, List.pairwise_append] at ordered
  rw [← split] at member
  rcases List.mem_append.mp member with gone | stays
  · exact absurd (ordered.2.2 entry gone kept keptMember) (not_lt.mpr newer)
  · exact stays

/-- Trimming keeps what is not below its bound. -/
theorem mem_entries_trim {stream : Retained α} {entry : StreamId × α}
    (member : entry ∈ stream.entries) {minId : StreamId} (above : minId ≤ entry.1) (count : Nat) :
    entry ∈ (stream.trim minId count).entries := by
  let low := stream.entries.takeWhile fun entry => entry.1 < minId
  have later : (stream.trim minId count).entries = stream.entries.drop (min count low.length) :=
    List.drop_drop.symm
  have taken : low = stream.entries.take low.length :=
    List.prefix_iff_eq_take.mp (List.takeWhile_prefix _)
  rw [later]
  rw [← List.take_append_drop (min count low.length) stream.entries] at member
  rcases List.mem_append.mp member with gone | stays
  · have lower : entry ∈ low := taken ▸ List.take_subset_take_left _ (min_le_right _ _) gone
    have below := List.mem_takeWhile_imp lower
    exact absurd (of_decide_eq_true below) (not_lt.mpr above)
  · exact stays

/-- The first id that was kept, or the last one there was. -/
def floor (stream : Retained α) : StreamId :=
  (stream.entries.head?.map (·.1)).getD stream.history.lastId

/-- Nothing later than the floor is gone. -/
theorem mem_entries_of_floor {stream : Retained α} {position : StreamId}
    (reaches : stream.floor ≤ position) {entry : StreamId × α}
    (member : entry ∈ stream.history.entries) (later : position < entry.1) :
    entry ∈ stream.entries := by
  unfold floor at reaches
  cases first : stream.entries.head? with
  | none =>
      rw [first] at reaches
      exact absurd (stream.history.le_lastId entry member)
        (not_le.mpr (lt_of_le_of_lt reaches later))
  | some kept =>
      rw [first] at reaches
      exact mem_entries_of_le (List.mem_of_head? first) member (reaches.trans later.le)

theorem floor_le {stream : Retained α} {entry : StreamId × α} (member : entry ∈ stream.entries) :
    stream.floor ≤ entry.1 := by
  have ordered := stream.ascending
  unfold floor
  cases kept : stream.entries with
  | nil =>
      rw [kept] at member
      cases member
  | cons first rest =>
      rw [kept] at member ordered
      rcases List.mem_cons.mp member with rfl | later
      · exact le_rfl
      · exact (List.rel_of_pairwise_cons ordered later).le

/-! ## Reading what is left -/

/-- What is left, as a stream of its own. -/
def left (stream : Retained α) : Stream α where
  entries := stream.entries
  ascending := stream.ascending
  positive entry member := stream.history.positive entry (List.mem_of_mem_drop member)

/-- A reader at the position has lost nothing that it still has to read, and can tell. -/
def Reaches (stream : Retained α) (position : StreamId) : Prop :=
  stream.removed = 0 ∨ stream.floor ≤ position

instance (stream : Retained α) (position : StreamId) : Decidable (stream.Reaches position) :=
  inferInstanceAs (Decidable (_ ∨ _))

theorem Reaches.mono {stream : Retained α} {position later : StreamId}
    (reaches : stream.Reaches position) (le : position ≤ later) : stream.Reaches later :=
  reaches.imp_right fun floor => floor.trans le

theorem Reaches.mem_entries {stream : Retained α} {position : StreamId}
    (reaches : stream.Reaches position) {entry : StreamId × α}
    (member : entry ∈ stream.history.entries) (later : position < entry.1) :
    entry ∈ stream.entries := by
  cases reaches with
  | inl whole => rwa [entries_of_whole whole]
  | inr floor => exact mem_entries_of_floor floor member later

/-- From such a position, the same is read as if nothing had been removed. -/
theorem Reaches.read_left {stream : Retained α} {position : StreamId}
    (reaches : stream.Reaches position) (count : Nat) :
    stream.left.read position count = stream.history.read position count := by
  have split := List.take_append_drop stream.removed stream.history.entries
  have ordered := stream.history.ascending
  rw [← split, List.pairwise_append] at ordered
  have gone : (stream.history.entries.take stream.removed).filter
      (fun entry => position < entry.1) = [] := by
    refine List.filter_eq_nil_iff.mpr fun entry member later => ?_
    have kept := reaches.mem_entries (List.mem_of_mem_take member) (of_decide_eq_true later)
    exact lt_irrefl _ (ordered.2.2 entry member entry kept)
  unfold Stream.read
  conv_rhs => rw [← split, List.filter_append, gone, List.nil_append]
  rfl

/-- From the very beginning, only a stream that has lost nothing can be read. -/
theorem reaches_start {stream : Retained α} : stream.Reaches .start ↔ stream.removed = 0 := by
  refine ⟨fun reaches => ?_, .inl⟩
  by_contra trimmed
  have longer : 0 < stream.history.entries.length := by
    have within := stream.within
    omega
  have kept := reaches.mem_entries (List.getElem_mem longer)
    (stream.history.positive _ (List.getElem_mem longer))
  obtain ⟨index, bound, same⟩ := List.getElem_of_mem kept
  have ordered := List.pairwise_iff_getElem.mp stream.history.ascending 0 (stream.removed + index)
  simp only [entries, List.length_drop] at bound
  simp only [entries, List.getElem_drop] at same
  have strict := ordered longer (by omega) (by omega)
  rw [same] at strict
  exact lt_irrefl _ strict

/-- Something is left at the position or before it. -/
def Keeps (stream : Retained α) (position : StreamId) : Prop :=
  stream.removed = 0 ∨ ∃ entry ∈ stream.entries, entry.1 ≤ position

section Keeps

variable {stream : Retained α} {position : StreamId}

theorem Keeps.reaches (keeps : stream.Keeps position) : stream.Reaches position := by
  cases keeps with
  | inl whole => exact .inl whole
  | inr kept =>
      obtain ⟨entry, member, le⟩ := kept
      exact .inr ((floor_le member).trans le)

theorem Keeps.mono (keeps : stream.Keeps position) {later : StreamId} (le : position ≤ later) :
    stream.Keeps later := by
  cases keeps with
  | inl whole => exact .inl whole
  | inr kept =>
      obtain ⟨entry, member, before⟩ := kept
      exact .inr ⟨entry, member, before.trans le⟩

theorem keeps_empty : (empty : Retained α).Keeps position := .inl rfl

theorem Keeps.grows (keeps : stream.Keeps position) {longer : Retained α}
    (removed : longer.removed = stream.removed)
    (grows : stream.history.entries <+: longer.history.entries) : longer.Keeps position := by
  cases keeps with
  | inl whole => exact .inl (removed.trans whole)
  | inr kept =>
      obtain ⟨entry, member, le⟩ := kept
      refine .inr ⟨entry, ?_, le⟩
      obtain ⟨more, whole⟩ := grows
      rw [entries, removed, ← whole, List.drop_append_of_le_length stream.within]
      exact List.mem_append_left _ member

/-- Trimming below an entry keeps that entry. -/
theorem Keeps.trim (keeps : stream.Keeps position)
    (present : position ∈ stream.history.entries.map (·.1)) {minId : StreamId}
    (below : minId ≤ position) (count : Nat) : (stream.trim minId count).Keeps position := by
  obtain ⟨entry, listed, rfl⟩ := List.mem_map.mp present
  have member : entry ∈ stream.entries := by
    cases keeps with
    | inl whole => rwa [entries_of_whole whole]
    | inr kept =>
        obtain ⟨other, otherMember, le⟩ := kept
        exact mem_entries_of_le otherMember listed le
  exact .inr ⟨entry, mem_entries_trim member below count, le_rfl⟩

end Keeps

end Retained

end QuantArena.Foundations
