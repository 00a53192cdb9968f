import QuantArena.Contracts.WireProperties
import QuantArena.Foundations.Tail

/-! `read_records`: what every consumer of a stream is given, from the bytes that Redis keeps. -/

set_option autoImplicit false

namespace QuantArena.Gateway

open Foundations Contracts

/-- One entry of the response: its payload unpacked, and stamped with its id. -/
def readRecord (streamId : StreamId) (payload : List UInt8) : Except Fault WireRecord := do
  let record ← unpackAny payload
  .ok (record.withSeq streamId)

/-- `read_records`. -/
def readRecords (store : Stream (List UInt8)) (lastId : StreamId) (count : Nat) :
    Except Fault (List (StreamId × WireRecord)) :=
  decodeAll readRecord (store.read lastId count)

theorem readRecord_eq_ok {streamId : StreamId} {payload : List UInt8} {read : WireRecord} :
    readRecord streamId payload = .ok read ↔ ∃ record : WireRecord,
      record.schemaVersion = schemaVersion ∧ record.recordType = record.type.code ∧
        record.pack = .ok payload ∧ read = record.withSeq streamId := by
  rw [readRecord, Fault.bind_eq_ok]
  constructor
  · intro unpacked
    obtain ⟨record, unpacked, same⟩ := unpacked
    obtain ⟨version, kind, packed⟩ := unpackAny_eq_ok.mp unpacked
    cases same
    exact ⟨record, version, kind, packed, rfl⟩
  · intro written
    obtain ⟨record, version, kind, packed, same⟩ := written
    exact ⟨record, unpackAny_eq_ok.mpr ⟨version, kind, packed⟩, by rw [same]⟩

/-! ## A stream of records behind a stream of bytes -/

variable {γ : Type} {wire : γ → Option WireRecord} {store : Stream (List UInt8)} {stream : Stream γ}

/-- The payload is what the record is written as. -/
def Written (wire : γ → Option WireRecord) (payload : List UInt8) (sent : γ) : Prop :=
  ∃ record, wire sent = some record ∧ record.pack = .ok payload

/-- Entry by entry, the store has what the stream's record is written as. -/
def Carries (wire : γ → Option WireRecord) (store : Stream (List UInt8)) (stream : Stream γ) : Prop :=
  List.Forall₂ (fun payload entry => payload.1 = entry.1 ∧ Written wire payload.2 entry.2)
    store.entries stream.entries

/-- A record of the stream, as it is read. -/
def ReadAs (wire : γ → Option WireRecord) (item : StreamId × WireRecord) (entry : StreamId × γ) :
    Prop :=
  item.1 = entry.1 ∧ ∃ record, wire entry.2 = some record ∧ item.2 = record.withSeq entry.1

theorem decodeAll_carried {payloads : List (StreamId × List UInt8)} {entries : List (StreamId × γ)}
    (current : ∀ sent record, wire sent = some record →
      record.schemaVersion = schemaVersion ∧ record.recordType = record.type.code)
    (carried : List.Forall₂ (fun payload entry => payload.1 = entry.1 ∧
      Written wire payload.2 entry.2) payloads entries) :
    ∃ items, decodeAll readRecord payloads = .ok items ∧
      List.Forall₂ (ReadAs wire) items entries := by
  induction carried with
  | nil => exact ⟨[], rfl, .nil⟩
  | @cons payload entry payloads entries first rest ih =>
      obtain ⟨same, record, written, packed⟩ := first
      obtain ⟨items, decoded, reads⟩ := ih
      obtain ⟨version, kind⟩ := current entry.2 record written
      have read : readRecord payload.1 payload.2 = .ok (record.withSeq payload.1) :=
        readRecord_eq_ok.mpr ⟨record, version, kind, packed, rfl⟩
      refine ⟨(payload.1, record.withSeq payload.1) :: items, ?_, .cons ⟨same, record, written, ?_⟩ reads⟩
      · rw [decodeAll, read]
        simp only [Fault.ok_bind, decoded]
      · rw [same]

theorem Carries.filter {payloads : List (StreamId × List UInt8)} {entries : List (StreamId × γ)}
    (carried : List.Forall₂ (fun payload entry => payload.1 = entry.1 ∧
      Written wire payload.2 entry.2) payloads entries) (after : StreamId) :
    List.Forall₂ (fun payload entry => payload.1 = entry.1 ∧ Written wire payload.2 entry.2)
      (payloads.filter fun payload => after < payload.1)
      (entries.filter fun entry => after < entry.1) := by
  induction carried with
  | nil => exact .nil
  | @cons payload entry payloads entries first rest ih =>
      by_cases later : after < entry.1
      · rw [List.filter_cons_of_pos (by simpa [first.1] using later),
          List.filter_cons_of_pos (by simpa using later)]
        exact .cons first ih
      · rw [List.filter_cons_of_neg (by simpa [first.1] using later),
          List.filter_cons_of_neg (by simpa using later)]
        exact ih

theorem Carries.length_eq (carries : Carries wire store stream) :
    store.entries.length = stream.entries.length := List.Forall₂.length_eq carries

theorem Carries.ids (carries : Carries wire store stream) :
    store.entries.map (·.1) = stream.entries.map (·.1) := by
  unfold Carries at carries
  generalize store.entries = payloads at carries ⊢
  generalize stream.entries = entries at carries ⊢
  induction carries with
  | nil => rfl
  | cons first _ ih => rw [List.map_cons, List.map_cons, ih, first.1]

theorem Carries.position (carries : Carries wire store stream) (seen : Nat) :
    store.position seen = stream.position seen := by
  have ids := congrArg (List.take seen) carries.ids
  rw [← List.map_take, ← List.map_take] at ids
  exact Stream.reached_congr ids .start

/-- A reader's place is that of an entry, or the start. -/
theorem Carries.present (carries : Carries wire store stream) (seen : Nat) :
    stream.position seen = .start ∨ stream.position seen ∈ store.entries.map (·.1) := by
  rw [carries.ids]
  refine (stream.position_eq_start_or_mem seen).imp_right fun found => ?_
  obtain ⟨entry, member, same⟩ := found
  exact same ▸ List.mem_map_of_mem (List.mem_of_mem_take member)

/-- An entry of the records beside the entry of the bytes that carries it. -/
theorem Carries.payload (carries : Carries wire store stream) {entry : StreamId × γ}
    (member : entry ∈ stream.entries) :
    ∃ payload ∈ store.entries, payload.1 = entry.1 ∧ Written wire payload.2 entry.2 := by
  unfold Carries at carries
  generalize store.entries = payloads at carries ⊢
  generalize stream.entries = entries at carries member
  induction carries with
  | nil => cases member
  | @cons payload other _ _ first _ ih =>
      cases List.mem_cons.mp member with
      | inl same => exact ⟨payload, List.mem_cons_self, same ▸ first⟩
      | inr later =>
          obtain ⟨found, listed, reads⟩ := ih later
          exact ⟨found, List.mem_cons_of_mem _ listed, reads⟩

theorem Carries.append (carries : Carries wire store stream) (now : Nat) {payload : List UInt8}
    {sent : γ} (written : Written wire payload sent) :
    Carries wire (store.append now payload) (stream.append now sent) := by
  have last : store.lastId = stream.lastId := Stream.reached_congr carries.ids .start
  refine List.rel_append carries (.cons ⟨?_, written⟩ .nil)
  rw [last]

theorem Carries.appendAll (carries : Carries wire store stream) (now : Nat)
    {payloads : List (List UInt8)} {records : List γ}
    (written : List.Forall₂ (Written wire) payloads records) :
    Carries wire (store.appendAll now payloads) (stream.appendAll now records) := by
  induction written generalizing store stream with
  | nil => exact carries
  | cons first _ ih => exact ih (carries.append now first)

/-- A read of the bytes is a read of the records. -/
theorem Carries.read (carries : Carries wire store stream)
    (current : ∀ sent record, wire sent = some record →
      record.schemaVersion = schemaVersion ∧ record.recordType = record.type.code)
    (lastId : StreamId) (count : Nat) :
    ∃ items, readRecords store lastId count = .ok items ∧
      List.Forall₂ (ReadAs wire) items (stream.read lastId count) :=
  decodeAll_carried current (List.forall₂_take count (Carries.filter carries lastId))

/-! ## Any consumer -/

/-- Whatever is appended, read, saved and gone back to, a consumer has seen the first entries of the
stream, each once and in order, as the record that was packed, under the entry's own id. It never
passes bytes that no record packs to; where every entry was packed, as many further reads as there
are entries see them all. -/
theorem consumers_see_every_record (moves : List (Tail.Move (List UInt8))) :
    let tail := Tail.start.run readRecord moves
    (∃ count ≤ tail.stream.entries.length, tail.lastId = tail.stream.position count ∧
      List.Forall₂ (fun entry item => item.1 = entry.1 ∧ ∃ record : WireRecord,
          record.schemaVersion = schemaVersion ∧ record.recordType = record.type.code ∧
            record.pack = .ok entry.2 ∧ item.2 = record.withSeq entry.1)
        (tail.stream.entries.take count) tail.seen) ∧
    ((∀ entry ∈ tail.stream.entries, ∃ record : WireRecord, record.schemaVersion = schemaVersion ∧
        record.recordType = record.type.code ∧ record.pack = .ok entry.2) →
      ∀ counts : List Nat, (∀ count ∈ counts, 0 < count) →
        tail.stream.entries.length ≤ counts.length →
          List.Forall₂ (fun entry item => item.1 = entry.1 ∧ ∃ record : WireRecord,
              record.schemaVersion = schemaVersion ∧ record.recordType = record.type.code ∧
                record.pack = .ok entry.2 ∧ item.2 = record.withSeq entry.1)
            tail.stream.entries (tail.run readRecord (counts.map .read)).seen) := by
  intro tail
  have follows : tail.Follows readRecord := Tail.start_follows.run moves
  obtain ⟨count, stands⟩ := follows.reader
  have packed : ∀ {entries : List (StreamId × List UInt8)} {items : List (StreamId × WireRecord)},
      Decoded readRecord entries items → List.Forall₂ (fun entry item => item.1 = entry.1 ∧
        ∃ record : WireRecord, record.schemaVersion = schemaVersion ∧
          record.recordType = record.type.code ∧ record.pack = .ok entry.2 ∧
            item.2 = record.withSeq entry.1) entries items := by
    intro entries items decoded
    exact decoded.imp fun entry item read => ⟨read.1, readRecord_eq_ok.mp read.2⟩
  refine ⟨⟨count, stands.within, stands.place, packed stands.decoded⟩, ?_⟩
  intro all counts ask enough
  refine packed (stands.all_seen ?_ ask (enough.trans (Nat.le_add_left _ _)))
  intro entry member
  obtain ⟨record, version, kind, own⟩ := all entry member
  exact ⟨_, readRecord_eq_ok.mpr ⟨record, version, kind, own, rfl⟩⟩

end QuantArena.Gateway
