import QuantArena.Archiver.Runner
import QuantArena.Archiver.WriterProperties

/-! What the archiver process holds while it reads: it stands for the part of the stream it
has folded since it started, and its checkpoint names a place where no unit is cut. -/

set_option autoImplicit false

namespace QuantArena.Archive

open Foundations Contracts Fanout

/-! ## Parts of the stream -/

/-- The entries between two places. -/
def segment (stream : Foundations.Stream Outbound) (first last : Nat) : List Entry :=
  (stream.entries.take last).drop first

/-- A place that no unit reaches over. -/
def Boundary (geometry : Geometry) (stream : Foundations.Stream Outbound) (place : Nat) : Prop :=
  ∀ before ∈ stream.entries.take place, ∀ after ∈ stream.entries.drop place,
    unitOf geometry before < unitOf geometry after

variable {geometry : Geometry} {writer : ArchiveWriter} {stream : Foundations.Stream Outbound}
  {first last : Nat} {start : Int}

theorem segment_self (stream : Foundations.Stream Outbound) (place : Nat) :
    segment stream place place = [] :=
  List.drop_eq_nil_of_le (List.length_take_le _ _)

theorem take_segment (stream : Foundations.Stream Outbound) (before : first ≤ last) :
    stream.entries.take first ++ segment stream first last = stream.entries.take last := by
  have shorter : stream.entries.take first = (stream.entries.take last).take first := by
    rw [List.take_take, Nat.min_eq_left before]
  rw [segment, shorter, List.take_append_drop]

theorem segment_timed (timed : Timed stream.entries) (first last : Nat) :
    Timed (segment stream first last) :=
  (timed.sublist (List.take_sublist _ _)).sublist (List.drop_sublist _ _)

theorem mem_segment_take {entry : Entry} (member : entry ∈ segment stream first last) :
    entry ∈ stream.entries.take last := List.mem_of_mem_drop member

theorem mem_segment {entry : Entry} (member : entry ∈ segment stream first last) :
    entry ∈ stream.entries := List.mem_of_mem_take (mem_segment_take member)

theorem mem_segment_drop {entry : Entry} (member : entry ∈ segment stream first last) :
    entry ∈ stream.entries.drop first := by
  rw [segment, List.drop_take] at member
  exact List.mem_of_mem_take member

theorem mem_segment_later {place : Nat} (ordered : first ≤ place) {entry : Entry}
    (member : entry ∈ segment stream place last) : entry ∈ segment stream first last :=
  (List.drop_sublist_drop_left _ ordered).mem member

theorem exists_mem_segment (less : first < last) (within : last ≤ stream.entries.length) :
    ∃ entry, entry ∈ segment stream first last := by
  refine List.exists_mem_of_length_pos ?_
  rw [segment, List.length_drop, List.length_take]
  omega

theorem lt_of_mem_segment {entry : Entry} (member : entry ∈ segment stream first last) :
    first < last := by
  have length := List.length_pos_of_mem member
  rw [segment, List.length_drop, List.length_take] at length
  omega

theorem segment_append {place : Nat} (ordered : first ≤ place) (onward : place ≤ last) :
    segment stream first place ++ segment stream place last = segment stream first last := by
  have split : stream.entries.take last =
      stream.entries.take place ++ segment stream place last := (take_segment stream onward).symm
  by_cases short : place ≤ stream.entries.length
  · conv_rhs => rw [segment, split]
    rw [List.drop_append_of_le_length (by simpa using ⟨ordered, ordered.trans short⟩)]
    rfl
  · have beyond : segment stream place last = [] := by
      rw [segment]
      exact List.drop_eq_nil_of_le (by simp; omega)
    have all : ∀ count, place ≤ count → stream.entries.take count = stream.entries :=
      fun count more => List.take_of_length_le (by omega)
    rw [beyond, List.append_nil, segment, segment, all place le_rfl, all last onward]

theorem boundary_start (geometry : Geometry) (stream : Foundations.Stream Outbound) :
    Boundary geometry stream 0 := fun before member => by cases member

theorem segment_grows (ordered : first ≤ last) (within : last ≤ stream.entries.length)
    (count : Nat) :
    segment stream first last ++ (stream.entries.drop last).take count =
        segment stream first (last + ((stream.entries.drop last).take count).length) ∧
      segment stream last (last + ((stream.entries.drop last).take count).length) =
        (stream.entries.drop last).take count := by
  have long : (stream.entries.take last).length = last := by simp [within]
  have same : (stream.entries.drop last).take ((stream.entries.drop last).take count).length =
      (stream.entries.drop last).take count := by
    rw [List.length_take, ← List.take_take, List.take_length]
  constructor
  · rw [segment, segment, List.take_add, same, List.drop_append_of_le_length (by omega)]
  · rw [segment, List.take_add, same, List.drop_append_of_le_length (by omega),
      List.drop_eq_nil_of_le (by omega), List.nil_append]

/-- In a timed part, what is earlier than some unit comes first. -/
theorem timed_split {entries : List Entry} (timed : Timed entries) (start : Int) :
    entries.filter (fun entry => unitOf geometry entry < start) ++
      entries.filter (fun entry => start ≤ unitOf geometry entry) = entries := by
  induction entries with
  | nil => rfl
  | cons head rest ih =>
      obtain ⟨before, later⟩ := List.pairwise_cons.mp timed
      by_cases early : unitOf geometry head < start
      · simpa [early, not_le.mpr early] using ih later
      · have late := not_lt.mp early
        have all : ∀ entry ∈ rest, start ≤ unitOf geometry entry := fun entry member =>
          late.trans (geometry.unitStart_mono (before entry member))
        rw [List.filter_eq_nil_iff.mpr, List.filter_eq_self.mpr, List.nil_append]
        · intro entry member
          cases member with
          | head => simpa using late
          | tail _ inside => simpa using all entry inside
        · intro entry member
          cases member with
          | head => simpa using early
          | tail _ inside => simpa using all entry inside

/-! ## The process -/

/-- A process that started at `first` and has read as far as `last`. -/
structure Stands (geometry : Geometry) (stream : Foundations.Stream Outbound) (first last : Nat)
    (gone : List FlushUnit) (archiver : Archiver) : Prop where
  ordered : first ≤ last
  within : last ≤ stream.entries.length
  position : archiver.position = stream.position last
  described : Describes geometry (segment stream first last) gone archiver.state
  drained : archiver.state.ready = []

theorem resume_stands {disk : Disk} {place : Nat} (within : place ≤ stream.entries.length)
    (recorded : disk.checkpoint.getD .start = stream.position place) :
    Stands geometry stream place place [] (.resume geometry disk) where
  ordered := le_rfl
  within := within
  position := recorded
  described := segment_self stream place ▸ new_describes geometry
  drained := rfl

variable {gone : List FlushUnit} {archiver : Archiver}

/-- One batch, and the units that it seals. -/
theorem Stands.read (stands : Stands geometry stream first last gone archiver)
    (timed : Timed stream.entries) (count : Nat) :
    ∃ further, last ≤ further ∧
      stream.read archiver.position count = segment stream last further ∧
      Stands geometry stream first further
        (gone ++ ((archiver.read geometry (stream.read archiver.position count)).state.drainReady).2)
        ⟨((archiver.read geometry (stream.read archiver.position count)).state.drainReady).1,
          (archiver.read geometry (stream.read archiver.position count)).position⟩ := by
  have batch : stream.read archiver.position count = (stream.entries.drop last).take count := by
    rw [stands.position, Stream.read_position]
  obtain ⟨grown, own⟩ := segment_grows stands.ordered stands.within count
  have short := List.length_take_le' count (stream.entries.drop last)
  rw [List.length_drop] at short
  refine ⟨_, Nat.le_add_right _ _, batch.trans own.symm, ?_⟩
  have described := stands.described.applyAll (batch ▸ grown ▸ segment_timed timed first _)
  rw [batch, grown] at described
  obtain ⟨all, drained⟩ := described.drained
  rw [batch]
  refine ⟨stands.ordered.trans (Nat.le_add_right _ _), ?_, ?_, ?_, rfl⟩
  · have within := stands.within
    omega
  · have moved := stream.position_add (List.take_prefix count (stream.entries.drop last))
      stands.within
    rw [moved, ← stands.position]
    rfl
  · show Describes geometry _ (gone ++ (ArchiveState.drainReady _).2) _
    rw [show ((archiver.read geometry ((stream.entries.drop last).take count)).state.drainReady).2 =
      (archiver.state.applyAll geometry ((stream.entries.drop last).take count)).ready from all]
    exact drained

/-! ## The checkpoint -/

theorem reached_of_ne_nil {batch : List Entry} (some : batch ≠ []) (before after : StreamId) :
    Stream.reached batch before = Stream.reached batch after := by
  cases batch using List.reverseRecOn with
  | nil => exact absurd rfl some
  | append_singleton rest last => simp [Stream.reached]

theorem position_segment (ordered : first ≤ last) (within : last ≤ stream.entries.length) :
    stream.position last = Stream.reached (segment stream first last) (stream.position first) := by
  have length : (segment stream first last).length = last - first := by
    rw [segment, List.length_drop, List.length_take, Nat.min_eq_left within]
  have before : segment stream first last <+: stream.entries.drop first := by
    rw [segment, List.drop_take]
    exact List.take_prefix _ _
  rw [← stream.position_add before (ordered.trans within), length, Nat.add_sub_cancel' ordered]

theorem drop_segment (stream : Foundations.Stream Outbound) (ordered : first ≤ last)
    (within : last ≤ stream.entries.length) :
    segment stream first last ++ stream.entries.drop last = stream.entries.drop first := by
  conv_rhs => rw [← List.take_append_drop last stream.entries]
  rw [segment, List.drop_append_of_le_length (by simpa using ⟨ordered, ordered.trans within⟩)]

theorem mem_take_or_segment {entry : Entry} (ordered : first ≤ last)
    (member : entry ∈ stream.entries.take last) :
    entry ∈ stream.entries.take first ∨ entry ∈ segment stream first last :=
  List.mem_append.mp (take_segment stream ordered ▸ member)

/-- What comes after a part is not of an earlier unit than its last record. -/
theorem openUnit_le_rest (timed : Timed stream.entries) {entry : Entry}
    (some : segment stream first last ≠ []) (member : entry ∈ stream.entries.drop last) :
    openUnit geometry (segment stream first last) ≤ unitOf geometry entry := by
  cases split : segment stream first last using List.reverseRecOn with
  | nil => exact absurd split some
  | append_singleton rest newest =>
      rw [openUnit_snoc]
      have final : newest ∈ segment stream first last := by simp [split]
      have inside := mem_segment_take final
      rw [← List.take_append_drop last stream.entries] at timed
      exact geometry.unitStart_mono ((List.pairwise_append.mp timed).2.2 newest inside entry member)

/-- A part cut in two. -/
theorem segment_cut {early late : List Entry} (ordered : first ≤ last)
    (split : early ++ late = segment stream first last) :
    segment stream first (first + early.length) = early ∧
      segment stream (first + early.length) last = late ∧ first + early.length ≤ last := by
  have part : (stream.entries.drop first).take (last - first) = early ++ late := by
    rw [← List.drop_take]
    exact split.symm
  have length : early.length ≤ last - first := by
    have short := List.length_take_le (last - first) (stream.entries.drop first)
    rw [part, List.length_append] at short
    omega
  refine ⟨?_, ?_, by omega⟩
  · have taken : ((stream.entries.drop first).take (last - first)).take early.length = early := by
      rw [part, List.take_left']
      rfl
    rw [List.take_take, Nat.min_eq_left length] at taken
    rw [segment, List.drop_take, Nat.add_sub_cancel_left]
    exact taken
  · rw [segment, ← List.drop_drop]
    show (segment stream first last).drop early.length = late
    rw [← split, List.drop_left']
    rfl

/-- Where the checkpoint is moved: just before the unit that is still open. -/
theorem Stands.checkpoint (stands : Stands geometry stream first last gone archiver)
    (timed : Timed stream.entries) (some : gone ≠ []) :
    ∃ place, archiver.state.checkpoint = stream.position place ∧ first < place ∧ place < last ∧
      (∀ entry ∈ segment stream first place,
        unitOf geometry entry < openUnit geometry (segment stream first last)) ∧
      ∀ entry ∈ stream.entries.drop place,
        openUnit geometry (segment stream first last) ≤ unitOf geometry entry := by
  have described := stands.described
  obtain ⟨unit, member⟩ := List.exists_mem_of_ne_nil _ some
  obtain ⟨less, oldest, inside, own⟩ := described.earlier unit (List.mem_append_left _ member)
  have filled : segment stream first last ≠ [] := List.ne_nil_of_mem inside
  have rest := fun entry => @openUnit_le_rest geometry stream first last timed entry filled
  have split := @timed_split geometry _ (segment_timed timed first last)
    (openUnit geometry (segment stream first last))
  obtain ⟨before, after, within⟩ := segment_cut stands.ordered split
  have less : oldest ∈ (segment stream first last).filter fun entry =>
      unitOf geometry entry < openUnit geometry (segment stream first last) :=
    List.mem_filter.mpr ⟨inside, by simpa [own] using less⟩
  have early : ∀ entry ∈ segment stream first (first + ((segment stream first last).filter fun entry =>
      unitOf geometry entry < openUnit geometry (segment stream first last)).length),
      unitOf geometry entry < openUnit geometry (segment stream first last) := by
    rw [before]
    exact fun entry member => by simpa using (List.mem_filter.mp member).2
  have late : ∀ entry ∈ stream.entries.drop (first + ((segment stream first last).filter fun entry =>
      unitOf geometry entry < openUnit geometry (segment stream first last)).length),
      openUnit geometry (segment stream first last) ≤ unitOf geometry entry := by
    intro other later
    rw [← List.take_append_drop last stream.entries, List.drop_append] at later
    cases List.mem_append.mp later with
    | inl part =>
        have inside : other ∈ segment stream (first + ((segment stream first last).filter
          fun entry => unitOf geometry entry <
            openUnit geometry (segment stream first last)).length) last := part
        rw [after] at inside
        simpa using (List.mem_filter.mp inside).2
    | inr beyond => exact rest other (List.mem_of_mem_drop beyond)
  refine ⟨_, ?_, Nat.lt_add_of_pos_right (List.length_pos_of_mem less), ?_, early, late⟩
  · rcases described.opened with ⟨none, -⟩ | ⟨current, -, opened, filling⟩
    · exact absurd none filled
    · have found : archiver.state.opened.get? (openUnit geometry (segment stream first last)) =
          Option.some current := Dict.get?_eq_some_iff.mpr (by simp [opened])
      have oldest : archiver.state.opened.keys.min? =
          Option.some (openUnit geometry (segment stream first last)) := by
        simp [Dict.keys, opened]
      rw [ArchiveState.checkpoint, oldest, Option.bind_some, found]
      refine filling.resumeAfter.trans ?_
      rw [reached_of_ne_nil (List.ne_nil_of_mem less) _ (stream.position first)]
      refine (stream.position_add ?_ (stands.ordered.trans stands.within)).symm
      rw [← before, segment, List.drop_take]
      exact List.take_prefix _ _
  · refine lt_of_le_of_ne within fun all => ?_
    rw [all] at early
    cases newest : segment stream first last using List.reverseRecOn with
    | nil => exact filled newest
    | append_singleton rest last =>
        have final := early last (by simp [newest])
        rw [newest, openUnit_snoc] at final
        exact absurd final (lt_irrefl _)

/-- A checkpoint that follows a boundary names one. -/
theorem Boundary.move {place : Nat} (boundary : Boundary geometry stream first)
    (ordered : first < place)
    (early : ∀ entry ∈ segment stream first place, unitOf geometry entry < start)
    (late : ∀ entry ∈ stream.entries.drop place, start ≤ unitOf geometry entry)
    (within : place ≤ stream.entries.length) : Boundary geometry stream place := by
  intro entry member other later
  cases mem_take_or_segment ordered.le member with
  | inl old =>
      obtain ⟨newest, inside⟩ := exists_mem_segment ordered within
      have first_ := boundary entry old newest (mem_segment_drop inside)
      have second := early newest inside
      have third := late other later
      omega
  | inr new => exact (early entry new).trans_le (late other later)

end QuantArena.Archive
