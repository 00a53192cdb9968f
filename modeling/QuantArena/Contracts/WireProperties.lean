import QuantArena.Contracts.OneLayout
import QuantArena.Contracts.Wire

/-! What `unpack_any` takes is exactly what the current classes pack, and the typed views lose
nothing but the sequence number. -/

set_option autoImplicit false

namespace QuantArena.Contracts

open Foundations

/-- Every record of the repository declares its fields widest first. -/
theorem layout_shipped {record : Generate.Record} (member : record ∈ Generate.shipped.records) :
    Generate.layout Generate.shipped record = Generate.shipped.header ++ record.fields := by
  have sorted : ∀ record ∈ Generate.shipped.records,
      record.fields.Pairwise fun left right => decide (right.size ≤ left.size) := by
    decide +kernel
  rw [Generate.layout, List.mergeSort_of_pairwise (sorted record member)]

/-- The classes are those that the generator writes for the schema of the repository. -/
theorem classes_generated {module : Generate.PyModule}
    (emitted : Generate.emitPy Generate.plainNames Generate.shipped = .ok module) :
    module.schemaVersion = schemaVersion ∧ module.schemaVersionOffset = 0 ∧
      module.recordTypeOffset = 2 ∧
      (module.classes.map fun cls => (cls.recordType, cls.format, cls.size)) =
        RecordType.all.map fun type => (type.code, type.format, type.size) := by
  have emits := (Generate.emitPy_eq_ok (Generate.validate_ok Generate.shipped_valid)).mp emitted
  refine ⟨emits.schemaVersion, Option.some.inj emits.version.symm,
    Option.some.inj emits.kind.symm, ?_⟩
  rw [emits.classes, List.map_map]
  calc (Generate.shipped.records.map fun record => ((Generate.classOf Generate.shipped record).recordType,
          (Generate.classOf Generate.shipped record).format,
          (Generate.classOf Generate.shipped record).size))
      = Generate.shipped.records.map fun record => (record.recordType,
          '<' :: (Generate.shipped.header ++ record.fields).map (·.code),
          ((Generate.shipped.header ++ record.fields).map (·.size)).sum) := by
        refine List.map_congr_left fun record member => ?_
        simp only [Generate.classOf, layout_shipped member]
    _ = RecordType.all.map fun type => (type.code, type.format, type.size) := rfl

variable {type : RecordType} {record : WireRecord} {data : List UInt8}

/-! ## One class -/

theorem WireRecord.ofValues_eq_ok {values : List Int} :
    WireRecord.ofValues type values = .ok record ↔ record.type = type ∧ record.values = values := by
  unfold WireRecord.ofValues
  constructor
  · intro built
    split at built
    · split at built
      · cases built
        exact ⟨rfl, rfl⟩
      · cases built
    · cases built
  · intro same
    obtain ⟨sameType, sameValues⟩ := same
    subst sameType
    subst sameValues
    simp only [WireRecord.values, dif_pos record.arity]

theorem WireRecord.pack_eq (record : WireRecord) :
    record.pack = packAll record.type.items record.values := by
  rw [WireRecord.pack, RecordType.format_items, Fault.ok_bind]

/-- A class unpacks just what its own records pack to. -/
theorem RecordType.unpack_eq_ok :
    type.unpack data = .ok record ↔ record.type = type ∧ record.pack = .ok data := by
  rw [RecordType.unpack, RecordType.format_items, Fault.ok_bind, WireRecord.pack_eq]
  constructor
  · intro unpacked
    split at unpacked
    · cases unpacked
    · rename_i length
      obtain ⟨same, values⟩ := WireRecord.ofValues_eq_ok.mp unpacked
      refine ⟨same, ?_⟩
      rw [same, values]
      exact packAll_takeAll type.items_wide (not_not.mp length)
  · intro packed
    obtain ⟨same, packed⟩ := packed
    subst same
    rw [if_neg (not_not.mpr (length_of_packAll packed)),
      takeAll_of_packAll record.type.items_wide packed]
    exact WireRecord.ofValues_eq_ok.mpr ⟨rfl, rfl⟩

/-! ## Any class -/

theorem size_pos (type : RecordType) : 28 ≤ type.size := by
  cases type <;> decide

/-- The two fields that `unpack_any` looks at first. -/
theorem WireRecord.peeked (packed : record.pack = .ok data) :
    peekSchemaVersion data = .ok record.schemaVersion ∧
      peekRecordType data = .ok record.recordType := by
  rw [WireRecord.pack_eq] at packed
  have length := length_of_packAll packed
  rw [RecordType.size_items] at length
  have long := size_pos record.type
  have values := takeAll_of_packAll record.type.items_wide packed
  simp only [RecordType.items, RecordType.headerItems, List.cons_append, List.nil_append, takeAll,
    WireRecord.values, List.cons.injEq] at values
  obtain ⟨version, kind, -⟩ := values
  rw [IntFormat.take_rest] at kind
  exact ⟨by rw [peekSchemaVersion, Generate.unpackUnsigned16, if_pos (by omega)]; exact congrArg _ version,
    by rw [peekRecordType, Generate.unpackUnsigned16, if_pos (by omega)]; exact congrArg _ kind⟩

/-- `unpack_any` returns a record for some bytes exactly when the record is of the current
version, names its own class, and packs to those bytes. -/
theorem unpackAny_eq_ok : unpackAny data = .ok record ↔
    record.schemaVersion = schemaVersion ∧ record.recordType = record.type.code ∧
      record.pack = .ok data := by
  constructor
  · intro unpacked
    obtain ⟨version, peekedVersion, unpacked⟩ := Fault.bind_eq_ok.mp unpacked
    split at unpacked
    · cases unpacked
    · rename_i current
      obtain ⟨kind, peekedKind, unpacked⟩ := Fault.bind_eq_ok.mp unpacked
      cases known : RecordType.ofCode? kind with
      | none =>
          rw [known] at unpacked
          cases unpacked
      | some type =>
          rw [known] at unpacked
          obtain ⟨same, packed⟩ := RecordType.unpack_eq_ok.mp unpacked
          obtain ⟨ownVersion, ownKind⟩ := WireRecord.peeked packed
          rw [peekedVersion] at ownVersion
          rw [peekedKind] at ownKind
          cases ownVersion
          cases ownKind
          rw [same]
          exact ⟨not_not.mp current, (RecordType.ofCode?_eq_some_iff.mp known).symm, packed⟩
  · intro own
    obtain ⟨version, kind, packed⟩ := own
    obtain ⟨peekedVersion, peekedKind⟩ := WireRecord.peeked packed
    rw [unpackAny, peekedVersion, Fault.ok_bind, if_neg (not_not.mpr version), peekedKind,
      Fault.ok_bind, kind, RecordType.ofCode?_eq_some_iff.mpr rfl]
    exact RecordType.unpack_eq_ok.mpr ⟨rfl, packed⟩

/-- The bytes are as many as the class says. -/
theorem WireRecord.length_of_pack (packed : record.pack = .ok data) :
    data.length = record.type.size := by
  rw [WireRecord.pack_eq] at packed
  rw [length_of_packAll packed, RecordType.size_items]

/-! ## The views -/

theorem Inbound.ofWire_wire {sent : Inbound} (written : sent.wire? = some record)
    (streamId : StreamId) : Inbound.ofWire (record.withSeq streamId) = sent := by
  cases sent with
  | other => cases written
  | _ =>
      cases written
      rfl

@[simp] theorem rejectReasonOf?_code (reason : RejectReason) :
    rejectReasonOf? (rejectReasonCode reason) = some reason := by
  cases reason <;> rfl

@[simp] theorem cancelReasonOf?_code (reason : CancelReason) :
    cancelReasonOf? (cancelReasonCode reason) = some reason := by
  cases reason <;> rfl

theorem Outbound.ofWire?_wire (sent : Outbound) (streamId : StreamId) :
    Outbound.ofWire? (sent.wire.withSeq streamId) = some sent := by
  cases sent with
  | orderRejected rejected =>
      simp only [wire, ofWire?, WireRecord.withSeq, WireRecord.new, rejectReasonOf?_code, Option.map_some]
  | orderCancelled cancelled =>
      simp only [wire, ofWire?, WireRecord.withSeq, WireRecord.new, cancelReasonOf?_code, Option.map_some]
  | _ => rfl

theorem Inbound.wire_current {sent : Inbound} (written : sent.wire? = some record) :
    record.schemaVersion = schemaVersion ∧ record.recordType = record.type.code := by
  cases sent with
  | other => cases written
  | _ =>
      cases written
      exact ⟨rfl, rfl⟩

theorem Outbound.wire_current (sent : Outbound) :
    sent.wire.schemaVersion = schemaVersion ∧ sent.wire.recordType = sent.wire.type.code := by
  cases sent <;> exact ⟨rfl, rfl⟩

/-- Whatever an engine reads as one of its records was written as that record: nothing but the
sequence number is lost in the view. -/
theorem Inbound.wire_ofWire (version : record.schemaVersion = schemaVersion)
    (kind : record.recordType = record.type.code) (read : Inbound.ofWire record ≠ .other) :
    (Inbound.ofWire record).wire? =
      some { record with seqMs := seqUnassigned, seqOrd := seqUnassigned } := by
  obtain ⟨type, own, code, ms, ord, timestampNs, body, arity⟩ := record
  simp only at version kind
  subst version
  subst kind
  revert read
  simp only [Inbound.ofWire]
  split
  · exact fun _ => rfl
  · exact fun _ => rfl
  · exact fun _ => rfl
  · exact fun _ => rfl
  · exact fun _ => rfl
  · exact fun read => absurd rfl read

/-- `unpack_any` gives a record exactly for the bytes that this record, of the current version and
under its own discriminator, packs to. So what the services pack is read back as it was, whatever
id the stream gave it. -/
theorem wire_is_exact (data : List UInt8) :
    (∀ record, unpackAny data = .ok record ↔ record.schemaVersion = schemaVersion ∧
      record.recordType = record.type.code ∧ record.pack = .ok data) ∧
    (∀ (sent : Inbound) (record : WireRecord), sent.wire? = some record → record.pack = .ok data →
      unpackAny data = .ok record ∧ data.length = record.type.size ∧
        ∀ streamId, Inbound.ofWire (record.withSeq streamId) = sent) ∧
    ∀ sent : Outbound, sent.wire.pack = .ok data →
      unpackAny data = .ok sent.wire ∧ data.length = sent.wire.type.size ∧
        ∀ streamId, Outbound.ofWire? (sent.wire.withSeq streamId) = some sent := by
  refine ⟨fun record => unpackAny_eq_ok, ?_, ?_⟩
  · intro sent record written packed
    obtain ⟨version, kind⟩ := Inbound.wire_current written
    exact ⟨unpackAny_eq_ok.mpr ⟨version, kind, packed⟩, WireRecord.length_of_pack packed,
      Inbound.ofWire_wire written⟩
  · intro sent packed
    obtain ⟨version, kind⟩ := sent.wire_current
    exact ⟨unpackAny_eq_ok.mpr ⟨version, kind, packed⟩, WireRecord.length_of_pack packed,
      sent.ofWire?_wire⟩

end QuantArena.Contracts
