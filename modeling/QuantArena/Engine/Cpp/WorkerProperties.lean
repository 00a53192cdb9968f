import QuantArena.Engine.Cpp.StreamEngineRestore
import QuantArena.Engine.Cpp.StreamEngineSteps
import QuantArena.Engine.Cpp.Worker
import QuantArena.Exchange.AnswerWire

/-! The worker reads what the contract packs and writes what it unpacks, and no record can be taken
for one of the two control frames. -/

set_option autoImplicit false

namespace QuantArena.Engine.Cpp

open Foundations Contracts

variable {record base : WireRecord} {data : List UInt8}

/-- Where every value fits, the memory of a record is its packed form. -/
theorem packRecord_ok (fits : record.Fits) : record.pack = .ok (packRecord record) :=
  WireRecord.pack_eq_ok.mpr ⟨fits, rfl⟩

theorem unpackRecord_of_pack (packed : record.pack = .ok data) :
    unpackRecord record.type data = .ok record := by
  have length := WireRecord.length_of_pack packed
  rw [WireRecord.pack_eq] at packed
  rw [unpackRecord, if_neg (not_not.mpr length),
    takeAll_of_packAll record.type.items_wide packed]
  exact WireRecord.ofValues_eq_ok.mpr ⟨rfl, rfl⟩

/-- The first bytes of a record are its schema version, and then its type. -/
theorem header_of_pack (packed : record.pack = .ok data) :
    28 ≤ data.length ∧ (RecordType.u16.take data).1 = record.schemaVersion ∧
      (RecordType.u16.take (data.drop 2)).1 = record.recordType := by
  have length := WireRecord.length_of_pack packed
  have least := size_pos record.type
  rw [WireRecord.pack_eq] at packed
  have values := takeAll_of_packAll record.type.items_wide packed
  simp only [RecordType.items, RecordType.headerItems, List.cons_append, List.nil_append, takeAll,
    WireRecord.values, List.cons.injEq] at values
  obtain ⟨version, kind, -⟩ := values
  rw [IntFormat.take_rest] at kind
  exact ⟨by omega, version, kind⟩

theorem unpackHeader_of_pack (version : record.schemaVersion = schemaVersion)
    (packed : record.pack = .ok data) : unpackHeader data = .ok record.recordType := by
  obtain ⟨long, first, second⟩ := header_of_pack packed
  have enough : ¬ data.length < headerSize := not_lt.mpr long
  rw [unpackHeader, if_neg enough, if_neg (not_not.mpr (first.trans version)), second]

namespace Worker

/-- A record begins with its schema version, which is no letter. -/
theorem not_frameIs (version : record.schemaVersion = schemaVersion)
    (packed : record.pack = .ok data) {magic : List UInt8}
    (letters : (RecordType.u16.take magic).1 ≠ schemaVersion) : ¬ frameIs data magic := by
  intro same
  obtain ⟨-, first, -⟩ := header_of_pack packed
  have front : (RecordType.u16.take magic).1 = (RecordType.u16.take data).1 := by
    rw [← same.2]
    show (Bytes.ofLittle ((data.take 4).take 2) : Int) = Bytes.ofLittle (data.take 2)
    rw [List.take_take]
    rfl
  exact letters (front.trans (first.trans version))

theorem magic_letters : (RecordType.u16.take snapshotRequest).1 ≠ schemaVersion ∧
    (RecordType.u16.take snapshotMagic).1 ≠ schemaVersion := by decide

/-- A record of the engine's is applied as the engine reads it. -/
theorem respond_record (version : record.schemaVersion = schemaVersion)
    (kind : record.recordType = record.type.code) (inbound : record.type ∈ inboundTypes)
    (packed : record.pack = .ok data) {engine after : StreamEngine} {outputs : List Outbound}
    (applied : engine.apply (Inbound.ofWire record) = .ok (after, outputs)) :
    respond engine data = .ok (after, outputs.map fun output => packRecord output.wire) := by
  have request := not_frameIs version packed magic_letters.1
  have snapshot := not_frameIs version packed magic_letters.2
  rw [respond, if_neg fun both => request both.2, if_neg snapshot, StreamEngine.applyBytes,
    unpackHeader_of_pack version packed]
  simp only [Fault.ok_bind, kind, RecordType.ofCode?_eq_some_iff.mpr rfl, if_pos inbound,
    unpackRecord_of_pack packed, applied]

/-- The engine's own records are among those it switches on. -/
theorem inbound_of_wire {sent : Inbound} (written : sent.wire? = some base) :
    base.type ∈ inboundTypes := by
  cases sent with
  | other => cases written
  | _ =>
      cases written
      simp [inboundTypes, WireRecord.new]

theorem respond_request (engine : StreamEngine) {snapshot : List UInt8}
    (taken : engine.snapshot = .ok snapshot) :
    respond engine snapshotRequest = .ok (engine, [snapshot]) := by
  rw [respond, if_pos (by decide), taken]
  rfl

theorem respond_snapshot (engine : StreamEngine) {after : StreamEngine} (long : 4 < data.length)
    (magic : data.take 4 = snapshotMagic) (restored : engine.restore data = .ok after) :
    respond engine data = .ok (after, []) := by
  rw [respond, if_neg fun both => by omega, if_pos ⟨long.le, magic⟩, restored]
  rfl

/-! ## The pipes -/

/-- Nothing is on its way. -/
def Idle (worker : Worker) : Prop := worker.stdin = [] ∧ worker.stdout = []

theorem new_idle (initialCashTicks : Int) : (new initialCashTicks).Idle := ⟨rfl, rfl⟩

theorem readInput_frame {payload rest : List UInt8} (filled : payload ≠ [])
    (framed : Frames.Framed payload) :
    readInput (Frames.frame payload ++ rest) = .ok (payload, rest) := by
  have header : Frames.readExactly 4 (Frames.frame payload ++ rest) =
      .ok (Bytes.truncated 4 payload.length, payload ++ rest) :=
    Frames.readExactly_eq_ok.mpr
      ⟨by rw [Frames.frame, List.append_assoc], Bytes.length_truncated _ _⟩
  have body : Frames.readExactly payload.length (payload ++ rest) = .ok (payload, rest) :=
    Frames.readExactly_eq_ok.mpr ⟨rfl, rfl⟩
  have some_ : payload.length ≠ 0 := fun none => filled (List.eq_nil_of_length_eq_zero none)
  rw [readInput, header]
  simp only [Except.mapError, Fault.ok_bind, Frames.ofLittle_length framed, if_neg some_, body]

/-- One turn reads one frame, and writes the answers and the empty one. -/
theorem turn_frame {worker : Worker} {payload rest : List UInt8} (filled : payload ≠ [])
    (framed : Frames.Framed payload) (waiting : worker.stdin = Frames.frame payload ++ rest)
    {after : StreamEngine} {outputs : List (List UInt8)}
    (responded : respond worker.engine payload = .ok (after, outputs)) :
    worker.turn = .ok ⟨after, rest, worker.stdout ++ Frames.frames outputs⟩ := by
  rw [turn, waiting, readInput_frame filled framed]
  simp only [Fault.ok_bind, responded]

end Worker

end QuantArena.Engine.Cpp
