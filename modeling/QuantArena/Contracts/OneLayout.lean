import QuantArena.Contracts.EmittedProperties

/-! When the two generated modules describe the same bytes: what the emitters take for granted about
a schema's header and its names, and what validation does not ask of it. -/

set_option autoImplicit false

namespace QuantArena.Contracts.Generate

open Foundations

/-! ## What is to hold -/

/-- A field of the common header lies where both languages read it before they know the record,
and is as wide as they read it. -/
structure ReadAlike (names : Names) (schema : Schema) (record : Record) (cls : PyClass)
    (name : String) (peeked : Nat) : Prop where
  python : cls.offsets.get? name = some peeked
  cpp : (emitHpp names schema).offsetof (emitHpp names schema).recordHeader name = some peeked
  width : ∀ field ∈ layout schema record, field.name = name → field.size = 2 ∧
    (emitHpp names schema).widthof (emitHpp names schema).recordHeader name = some field.size

/-- Arguments of `new` within the types of their fields. -/
def InRange (schema : Schema) (record : Record) (arguments : String → Int) : Prop :=
  ∀ field ∈ layout schema record, field.name = "timestamp_ns" ∨ field.name ∉ schema.headerNames →
    ∀ type, types field.type = some type → type.format.Fits (arguments field.name)

/-- One record in both modules. -/
structure SameBytes (names : Names) (schema : Schema) (module : PyModule) (record : Record)
    (cls : PyClass) : Prop where
  /-- Each member begins where the last one ends, from 0 on, in either language. -/
  places : ∃ ends, structPlaces cls.format = .ok ends ∧
    (emitHpp names schema).places ((layout schema record).map cppMember) = some ends ∧
    ∀ (index : Nat) (field : Field), (layout schema record)[index]? = some field →
      cls.offsets.get? field.name = ends[index]?
  version : ReadAlike names schema record cls "schema_version" module.schemaVersionOffset
  kind : ReadAlike names schema record cls "record_type" module.recordTypeOffset
  roundTrip : ∀ arguments, InRange schema record arguments →
    ∃ made bytes, cls.new module arguments = .ok made ∧ made.pack = .ok bytes ∧
      module.unpackAny bytes = .ok made

/-- The modules of a schema can be used and describe the same bytes. -/
def OneLayout (names : Names) (schema : Schema) : Prop :=
  ∃ module, emitPy names schema = .ok module ∧ module.Loads names ∧
    (emitHpp names schema).Compiles names ∧
    ∀ record ∈ schema.records, ∃ cls, pyClass schema record = .ok cls ∧
      SameBytes names schema module record cls

/-! ## What it takes -/

/-- A field that is read before the record is known: two bytes, and a constant that they hold
without a sign. -/
structure Common (field : Field) (name : String) (value : Int) : Prop where
  name : field.name = name
  size : field.size = 2
  fits : field.format.Fits value
  nonneg : 0 ≤ value

/-- Names that the emitted class uses itself. -/
def reserved : List String := ["cls", "new", "pack", "unpack", "FORMAT", "SIZE"]

/-- The synthesised enumeration has two bytes. -/
def EnumFits (field : Field) : Prop := field.enum = some "RecordType" → field.size = 2

/-- What the emitters take for granted about a record and the header before it. -/
structure Regular (names : Names) (schema : Schema) (record : Record) : Prop where
  header : ∃ version kind rest, schema.header = version :: kind :: rest ∧
    Common version "schema_version" schema.schemaVersion ∧
    Common kind "record_type" record.recordType ∧
    (rest.map (·.name)).Perm ["seq_ms", "seq_ord", "timestamp_ns"]
  distinct : (record.fields.map (·.name)).Nodup
  unreserved : ∀ field ∈ record.fields, field.name ∉ reserved
  members : ∀ field ∈ layout schema record, names.member field.name
  enums : ∀ field ∈ layout schema record, EnumFits field
  /-- No field is called like an enumeration that the record uses. -/
  meanings : ∀ field ∈ layout schema record, ∀ other ∈ layout schema record,
    other.enum ≠ some field.name

/-- An enumeration that both languages can declare. -/
structure Enum.Declarable (names : Names) (enum : Enum) : Prop where
  name : names.type enum.name
  distinct : (enum.values.map (·.name)).Nodup
  enumerators : ∀ value ∈ enum.values, names.enumerator value.name
  values : ∀ value ∈ enum.values, value.value.natAbs < 2 ^ 63 ∧
    ∀ type, types enum.underlying = some type → type.format.Fits value.value
  body : enum.values ≠ [] ∨ enum.documented = true

/-- What the emitters take for granted about the types that a schema declares, the synthesised one
among them. -/
structure Nameable (names : Names) (schema : Schema) : Prop where
  enums : ∀ enum ∈ schema.enumerations names, enum.Declarable names
  distinct : (constants ++ (schema.enumerations names).map (·.name) ++
    "RecordHeader" :: schema.records.map (·.name)).Nodup
  records : ∀ record ∈ schema.records, names.type record.name ∧
    record.name ∉ PyModule.boundLast ∧ "_S_" ++ record.name ∉ schema.records.map (·.name)

/-! ## The emitted modules -/

variable {names : Names} {schema : Schema} {record : Record}

/-- The class of a record whose fields all have types. -/
def classOf (schema : Schema) (record : Record) : PyClass where
  name := record.name
  annotations := (layout schema record).map (·.name)
  format := '<' :: (layout schema record).map (·.code)
  size := ((layout schema record).map (·.size)).sum
  recordType := record.recordType
  offsets := .ofEntries (placed 0 (layout schema record))
  parameters := "timestamp_ns" ::
    ((layout schema record).filter (·.name ∉ schema.headerNames)).map (·.name)
  call := [("schema_version", .schemaVersion), ("record_type", .literal record.recordType),
    ("seq_ms", .seqUnassigned), ("seq_ord", .seqUnassigned),
    ("timestamp_ns", .parameter "timestamp_ns")] ++
      (((layout schema record).filter (·.name ∉ schema.headerNames)).map (·.name)).map
        fun name => (name, .parameter name)

theorem pyClass_ok (typed : ∀ field ∈ layout schema record, field.Typed) :
    pyClass schema record = .ok (classOf schema record) := by
  unfold pyClass
  simp only [offsets_ok typed, structFormat_ok typed, Fault.ok_bind]
  rfl

theorem Accepted.typed (accepted : Accepted schema) (header : ∀ field ∈ schema.header, field.Typed)
    (member : record ∈ schema.records) : ∀ field ∈ layout schema record, field.Typed := by
  intro field present
  cases mem_layout.mp present with
  | inl common => exact header field common
  | inr own => exact (accepted.body record member field own).2.typed

theorem cppInteger_cpp (type : WireType) : cppInteger type.cpp = some type.format := by
  cases type <;> rfl

theorem cppSizeof_cpp (type : WireType) : cppSizeof type.cpp = some type.size := by
  rw [cppSizeof, cppInteger_cpp, Option.map_some, type.width_format]

theorem sizeof_recordType : (emitHpp names schema).sizeof (.enumeration "RecordType") = some 2 := by
  rw [CppHeader.sizeof, emitHpp, Schema.enumerations, List.map_cons,
    List.find?_cons_of_pos (by simp [cppEnum, recordTypeEnum])]
  rfl

theorem find?_enum {enums : List Enum} (distinct : (enums.map (·.name)).Nodup) {enum : Enum}
    (member : enum ∈ enums) : enums.find? (·.name = enum.name) = some enum := by
  cases found : enums.find? (·.name = enum.name) with
  | none => exact absurd (decide_eq_true rfl) (List.find?_eq_none.mp found enum member)
  | some other =>
      have same : other.name = enum.name := by simpa using List.find?_some found
      exact congrArg some
        (List.inj_on_of_nodup_map distinct (List.mem_of_find?_eq_some found) member same)

theorem name_cppMember (field : Field) : (cppMember field).name = field.name := by
  unfold cppMember
  split <;> rfl

theorem type_cppMember {field : Field} {named : String} :
    (cppMember field).type = .enumeration named ↔ field.enum = some named := by
  unfold cppMember
  split <;> simp_all

theorem names_cppEnums : (emitHpp names schema).enums.map (·.name) =
    "RecordType" :: schema.enums.map (·.name) := by
  rw [emitHpp, Schema.enumerations, List.map_map]
  rfl

/-- In C++ a member is as wide as its field's type exactly when its enumeration is. -/
theorem sizeof_cppMember (distinct : (schema.enums.map (·.name)).Nodup) {field : Field}
    (typed : field.Typed) (sound : field.enum ≠ some "RecordType" → Sound schema field) :
    (emitHpp names schema).sizeof (cppMember field).type = some field.size ↔ EnumFits field := by
  obtain ⟨type, found⟩ := typed
  unfold cppMember EnumFits
  cases named : field.enum with
  | none =>
      simp only [CppHeader.sizeof, Field.size, found, Option.map_some, Option.getD_some,
        cppSizeof_cpp]
      simp
  | some enumName =>
      by_cases synthesised : enumName = "RecordType"
      · subst synthesised
        simp only [sizeof_recordType, Option.some.injEq, forall_const]
        exact eq_comm
      · obtain ⟨-, underlies⟩ := sound (by rw [named]; simpa using synthesised)
        obtain ⟨enum, member, rfl, sameType⟩ := underlies enumName named
        have declared : (emitHpp names schema).enums.find? (·.name = enum.name) =
            some (cppEnum enum) := by
          rw [emitHpp, Schema.enumerations, List.map_cons,
            List.find?_cons_of_neg (by simp [cppEnum, recordTypeEnum, Ne.symm synthesised]),
            List.find?_map]
          exact congrArg (Option.map cppEnum) (find?_enum distinct member)
        have width : (emitHpp names schema).sizeof (.enumeration enum.name) = some field.size := by
          rw [CppHeader.sizeof, declared, Option.bind_some, cppEnum, sameType, found, Field.size,
            found]
          exact cppSizeof_cpp type
        simp [width, synthesised]

/-- The packed struct of a record has Python's places exactly when all its enumerations fit. -/
theorem places_iff (accepted : Accepted schema) (distinct : (schema.enums.map (·.name)).Nodup)
    (header : ∀ field ∈ schema.header, field.Typed) (member : record ∈ schema.records) :
    (emitHpp names schema).places ((layout schema record).map cppMember) =
        some (places 0 ((layout schema record).map (·.size))) ↔
      ∀ field ∈ layout schema record, EnumFits field := by
  have each : ∀ field ∈ layout schema record,
      ((emitHpp names schema).sizeof (cppMember field).type = some field.size ↔ EnumFits field) := by
    intro field present
    refine sizeof_cppMember distinct (accepted.typed header member field present) fun other => ?_
    cases mem_layout.mp present with
    | inl common => exact accepted.header field common other
    | inr own => exact (accepted.body record member field own).2
  rw [CppHeader.places, Option.map_eq_some_iff]
  constructor
  · rintro ⟨widths, sizes, same⟩ field present
    rw [places_inj same, mapM_some_iff, List.map_map, List.map_map, List.map_inj_left] at sizes
    exact (each field present).mp (sizes field present)
  · intro fits
    refine ⟨_, mapM_some_iff.mpr ?_, rfl⟩
    rw [List.map_map, List.map_map, List.map_inj_left]
    exact fun field present => (each field present).mpr (fits field present)

/-- `RecordHeader`, whatever the schema: `schema_version` at 0 and `record_type` at 2. -/
theorem recordHeader_places :
    (emitHpp names schema).places (emitHpp names schema).recordHeader = some [0, 2, 4] := by
  have sizes : (emitHpp names schema).recordHeader.mapM
      (fun member => (emitHpp names schema).sizeof member.type) = some [2, 2] := by
    refine mapM_some_iff.mpr ?_
    simp only [emitHpp, List.map_cons, List.map_nil]
    exact congrArg (fun kind => [some 2, kind]) (sizeof_recordType)
  rw [CppHeader.places, sizes]
  rfl

/-! ## Names -/

/-- The arguments that `new` gives by hand, before those of the body. -/
def common : List String := ["schema_version", "record_type", "seq_ms", "seq_ord", "timestamp_ns"]

def bodyNames (schema : Schema) (record : Record) : List String :=
  ((layout schema record).filter (·.name ∉ schema.headerNames)).map (·.name)

theorem filter_layout (accepted : Accepted schema) (member : record ∈ schema.records) :
    (layout schema record).filter (·.name ∉ schema.headerNames) =
      record.fields.mergeSort (fun left right => right.size ≤ left.size) := by
  have none : schema.header.filter (·.name ∉ schema.headerNames) = [] := by
    refine List.filter_eq_nil_iff.mpr fun field common => ?_
    simpa [Schema.headerNames] using ⟨field, common, rfl⟩
  have all : (record.fields.mergeSort fun left right => right.size ≤ left.size).filter
      (·.name ∉ schema.headerNames) =
        record.fields.mergeSort (fun left right => right.size ≤ left.size) := by
    refine List.filter_eq_self.mpr fun field own => ?_
    have listed : field ∈ record.fields := (List.mergeSort_perm record.fields _).mem_iff.mp own
    simpa using (accepted.body record member field listed).1
  rw [layout, List.filter_append, none, all, List.nil_append]

theorem annotations_eq (accepted : Accepted schema) (member : record ∈ schema.records) :
    (layout schema record).map (·.name) = schema.headerNames ++ bodyNames schema record := by
  rw [bodyNames, filter_layout accepted member, layout, List.map_append]
  rfl

theorem bodyNames_perm (accepted : Accepted schema) (member : record ∈ schema.records) :
    (bodyNames schema record).Perm (record.fields.map (·.name)) := by
  rw [bodyNames, filter_layout accepted member]
  exact (List.mergeSort_perm record.fields _).map _

theorem bodyNames_apart {name : String} (own : name ∈ bodyNames schema record) :
    name ∉ schema.headerNames := by
  obtain ⟨field, listed, rfl⟩ := List.mem_map.mp own
  simpa using (List.mem_filter.mp listed).2

theorem call_names : (classOf schema record).call.map (·.1) = common ++ bodyNames schema record := by
  rw [classOf, List.map_append, List.map_map]
  exact congrArg (common ++ ·) (List.map_id _)

/-- The header has the five names that `new` gives, and the body none of them twice. -/
structure Named (schema : Schema) (record : Record) : Prop where
  header : schema.headerNames.Perm common
  body : (bodyNames schema record).Nodup

theorem common_nodup : common.Nodup := by decide

theorem Named.call (named : Named schema record) : (common ++ bodyNames schema record).Nodup := by
  refine List.nodup_append.mpr ⟨common_nodup, named.body, fun name given other own same => ?_⟩
  exact bodyNames_apart own (named.header.mem_iff.mpr (same ▸ given))

theorem Named.annotations (named : Named schema record) (accepted : Accepted schema)
    (member : record ∈ schema.records) : ((layout schema record).map (·.name)).Nodup := by
  rw [annotations_eq accepted member]
  exact (named.header.append_right _).nodup_iff.mpr named.call

theorem Named.mem_annotations (named : Named schema record) (accepted : Accepted schema)
    (member : record ∈ schema.records) {name : String} :
    name ∈ (layout schema record).map (·.name) ↔ name ∈ common ++ bodyNames schema record := by
  rw [annotations_eq accepted member, (named.header.append_right _).mem_iff]

/-! ## Making and packing -/

/-- What a field of a new record holds. -/
def valueOf (module : PyModule) (record : Record) (arguments : String → Int) (name : String) : Int :=
  if name = "schema_version" then module.schemaVersion
  else if name = "record_type" then record.recordType
  else if name = "seq_ms" ∨ name = "seq_ord" then 0
  else arguments name

theorem Named.new (named : Named schema record) (accepted : Accepted schema)
    (member : record ∈ schema.records) (module : PyModule) (arguments : String → Int)
    (callable : "new" ∉ (classOf schema record).annotations) :
    (classOf schema record).new module arguments = .ok ⟨classOf schema record,
      ((layout schema record).map (·.name)).map (valueOf module record arguments)⟩ := by
  have fields : (classOf schema record).fields = (layout schema record).map (·.name) :=
    eraseDups_of_nodup (named.annotations accepted member)
  -- The keywords, with their values.
  have keywords : ((classOf schema record).call.map fun keyword =>
      (keyword.1, keyword.2.value module arguments)) =
      [("schema_version", module.schemaVersion), ("record_type", record.recordType), ("seq_ms", 0),
        ("seq_ord", 0), ("timestamp_ns", arguments "timestamp_ns")] ++
        (bodyNames schema record).map fun name => (name, arguments name) := by
    rw [classOf, List.map_append, List.map_map]
    rfl
  rw [PyClass.new, if_neg callable, keywords, build_eq_ok, fields]
  refine ⟨fun keyword given => ?_, rfl, ?_⟩
  · rw [named.mem_annotations accepted member, List.mem_append]
    cases List.mem_append.mp given with
    | inl hand =>
        left
        have first := List.mem_map_of_mem (f := Prod.fst) hand
        exact first
    | inr own =>
        right
        obtain ⟨name, listed, rfl⟩ := List.mem_map.mp own
        exact listed
  · refine Eq.trans (List.map_congr_left fun name listed => ?_) List.map_map.symm
    rw [named.mem_annotations accepted member, List.mem_append] at listed
    rw [List.lookup_append]
    cases listed with
    | inl hand =>
        simp only [common, List.mem_cons, List.not_mem_nil, or_false] at hand
        rcases hand with rfl | rfl | rfl | rfl | rfl <;> rfl
    | inr own =>
        have apart : name ∉ common := fun hand =>
          bodyNames_apart own (named.header.mem_iff.mpr hand)
        simp only [common, List.mem_cons, List.not_mem_nil, or_false, not_or] at apart
        obtain ⟨version, kind, millis, ordinal, time⟩ := apart
        have missing : List.lookup name [("schema_version", module.schemaVersion),
            ("record_type", record.recordType), ("seq_ms", 0), ("seq_ord", 0),
            ("timestamp_ns", arguments "timestamp_ns")] = none := by
          refine List.lookup_eq_none_iff.mpr fun entry given => ?_
          simp only [List.mem_cons, List.not_mem_nil, or_false] at given
          rcases given with rfl | rfl | rfl | rfl | rfl <;> simpa
        rw [missing, lookup_map arguments own]
        simp [valueOf, version, kind, millis, ordinal]

/-! ## The generated module -/

/-- What the generator returns, when it does. -/
structure Emits (names : Names) (schema : Schema) (module : PyModule) : Prop where
  typed : ∀ field ∈ schema.header, field.Typed
  schemaVersion : module.schemaVersion = schema.schemaVersion
  enums : module.enums = (schema.enumerations names).map pyEnum
  classes : module.classes = schema.records.map (classOf schema)
  version : (Dict.ofEntries (placed 0 schema.header)).get? "schema_version" =
    some module.schemaVersionOffset
  kind : (Dict.ofEntries (placed 0 schema.header)).get? "record_type" = some module.recordTypeOffset

theorem orMissing_eq_ok {α : Type} {found : Option α} {value : α} :
    orMissing found = .ok value ↔ found = some value := by
  cases found with
  | none => simp [orMissing]
  | some other => simp

theorem emitPy_eq_ok (accepted : Accepted schema) {module : PyModule} :
    emitPy names schema = .ok module ↔ Emits names schema module := by
  have each : (∀ field ∈ schema.header, field.Typed) →
      schema.records.mapM (pyClass schema) = .ok (schema.records.map (classOf schema)) :=
    fun typed => mapM_eq_map fun record member => pyClass_ok (accepted.typed typed member)
  unfold emitPy
  constructor
  · intro emitted
    obtain ⟨classes, all, emitted⟩ := Fault.bind_eq_ok.mp emitted
    obtain ⟨⟨out, total⟩, places, emitted⟩ := Fault.bind_eq_ok.mp emitted
    have typed := typed_of_offsets places
    rw [offsets_ok typed] at places
    cases places
    obtain ⟨kind, foundKind, emitted⟩ := Fault.bind_eq_ok.mp emitted
    obtain ⟨version, foundVersion, emitted⟩ := Fault.bind_eq_ok.mp emitted
    rw [each typed] at all
    cases all
    cases emitted
    exact ⟨typed, rfl, rfl, rfl, orMissing_eq_ok.mp foundVersion, orMissing_eq_ok.mp foundKind⟩
  · rintro ⟨typed, schemaVersion, enums, classes, version, kind⟩
    obtain ⟨moduleVersion, moduleEnums, moduleClasses, recordTypeOffset, schemaVersionOffset⟩ :=
      module
    cases schemaVersion
    cases enums
    cases classes
    rw [each typed, Fault.ok_bind, offsets_ok typed, Fault.ok_bind]
    simp only [version, kind, orMissing_some, Fault.ok_bind]
    rfl

/-- The generator returns for a header whose types are known and that has a record type. -/
theorem emitPy_total (accepted : Accepted schema) (typed : ∀ field ∈ schema.header, field.Typed)
    (kind : "record_type" ∈ schema.headerNames) : ∃ module, emitPy names schema = .ok module := by
  have present : ∀ name ∈ schema.headerNames,
      ∃ place, (Dict.ofEntries (placed 0 schema.header)).get? name = some place := by
    intro name listed
    refine Option.ne_none_iff_exists'.mp (get?_foldl_set_ne_none (.inr ?_))
    rw [keys_placed]
    exact listed
  obtain ⟨versionPlace, foundVersion⟩ := present _ accepted.versioned
  obtain ⟨kindPlace, foundKind⟩ := present _ kind
  exact ⟨⟨schema.schemaVersion, _, _, kindPlace, versionPlace⟩,
    (emitPy_eq_ok accepted).mpr ⟨typed, rfl, rfl, rfl, foundVersion, foundKind⟩⟩

theorem Emits.header_kind {module : PyModule} (emits : Emits names schema module) :
    "record_type" ∈ schema.headerNames := by
  cases Dict.mem_of_get?_foldl_set emits.kind with
  | inr none => cases none
  | inl bound =>
      have named := List.mem_map_of_mem (f := Prod.fst) bound
      rw [keys_placed] at named
      exact named

/-- The class that a record type leads to is that of the record. -/
theorem Emits.recordByType {module : PyModule} (emits : Emits names schema module)
    (accepted : Accepted schema) {recordType : Int} {cls : PyClass} :
    module.recordByType.get? recordType = some cls ↔
      ∃ record ∈ schema.records, record.recordType = recordType ∧ classOf schema record = cls := by
  have keys : (module.classes.map fun cls => (cls.recordType, cls)).map Prod.fst =
      schema.records.map (·.recordType) := by
    rw [emits.classes, List.map_map, List.map_map]
    rfl
  rw [PyModule.recordByType, Dict.get?_ofEntries (by rw [keys]; exact accepted.distinct),
    emits.classes, List.map_map, List.mem_map]
  constructor
  · rintro ⟨record, member, same⟩
    obtain ⟨kind, cls⟩ := Prod.mk.inj same
    exact ⟨record, member, kind, cls⟩
  · rintro ⟨record, member, rfl, rfl⟩
    exact ⟨record, member, rfl⟩

/-! ## Where the common fields lie -/

theorem sum_take_lt {widths : List Nat} (wide : ∀ width ∈ widths, 0 < width) {early late : Nat}
    (before : early < late) (within : late ≤ widths.length) :
    (widths.take early).sum < (widths.take late).sum := by
  induction widths generalizing early late with
  | nil => cases before.trans_le within
  | cons width rest ih =>
      obtain ⟨late, rfl⟩ := Nat.exists_eq_succ_of_ne_zero (Nat.ne_zero_of_lt before)
      rw [List.take_succ_cons, List.sum_cons]
      cases early with
      | zero =>
          have first := wide width List.mem_cons_self
          rw [List.take_zero, List.sum_nil]
          omega
      | succ early =>
          have others := ih (fun width member => wide width (List.mem_cons_of_mem _ member))
            (Nat.lt_of_succ_lt_succ before) (Nat.le_of_succ_le_succ within)
          rw [List.take_succ_cons, List.sum_cons]
          omega

/-- Fields are told apart by where they begin. -/
theorem index_of_place {fields : List Field} (typed : ∀ field ∈ fields, field.Typed)
    (distinct : (fields.map (·.name)).Nodup) {first second : Nat} {left right : Field}
    (atFirst : fields[first]? = some left) (atSecond : fields[second]? = some right)
    (same : (Dict.ofEntries (placed 0 fields)).get? left.name =
      (Dict.ofEntries (placed 0 fields)).get? right.name) : first = second := by
  have wide : ∀ width ∈ fields.map (·.size), 0 < width := by
    intro width member
    obtain ⟨field, listed, rfl⟩ := List.mem_map.mp member
    exact (typed field listed).size_pos
  have firstWithin : first < fields.length := (List.getElem?_eq_some_iff.mp atFirst).1
  have secondWithin : second < fields.length := (List.getElem?_eq_some_iff.mp atSecond).1
  rw [get?_placed distinct atFirst, get?_placed distinct atSecond,
    places_getElem? 0 (by simpa using firstWithin.le),
    places_getElem? 0 (by simpa using secondWithin.le), Nat.zero_add, Nat.zero_add] at same
  have sums := Option.some.inj same
  rcases Nat.lt_trichotomy first second with before | equal | after
  · exact absurd sums (sum_take_lt wide before (by simpa using secondWithin.le)).ne
  · exact equal
  · exact absurd sums.symm (sum_take_lt wide after (by simpa using firstWithin.le)).ne

theorem offsetof_version :
    (emitHpp names schema).offsetof (emitHpp names schema).recordHeader "schema_version" = some 0 := by
  rw [CppHeader.offsetof, recordHeader_places]
  rfl

theorem offsetof_kind :
    (emitHpp names schema).offsetof (emitHpp names schema).recordHeader "record_type" = some 2 := by
  rw [CppHeader.offsetof, recordHeader_places]
  rfl

/-! ## From the modules to the schema -/

variable {module : PyModule}

/-- A class that a record can be made with, packed by and read back by has the right names. -/
theorem SameBytes.named (same : SameBytes names schema module record (classOf schema record))
    (accepted : Accepted schema) (emits : Emits names schema module) (member : record ∈ schema.records)
    (loads : (classOf schema record).Loads names) :
    Named schema record ∧ "new" ∉ (classOf schema record).annotations ∧
      "pack" ∉ (classOf schema record).annotations ∧
      "unpack" ∉ (classOf schema record).annotations := by
  have typed := accepted.typed emits.typed member
  have zeros : InRange schema record fun _ => 0 := by
    intro field _ _ type _
    refine IntFormat.fits_zero ?_
    rw [type.width_format]
    exact type.size_pos.ne'
  obtain ⟨made, bytes, new, pack, back⟩ := same.roundTrip _ zeros
  have callable : "new" ∉ (classOf schema record).annotations := by
    intro hidden
    rw [PyClass.new, if_pos hidden] at new
    cases new
  rw [PyClass.new, if_neg callable, build_eq_ok] at new
  obtain ⟨expected, cls, values⟩ := new
  obtain ⟨packable, formats, read, packed⟩ := pack_eq_ok.mp pack
  rw [cls] at packable read
  obtain ⟨-, recordType, other, -, found, unpacked⟩ := unpackAny_eq_ok.mp back
  obtain ⟨unpackable, otherFormats, -, -, -, unpackedAs⟩ := unpack_eq_ok.mp unpacked
  rw [unpackedAs] at cls
  have sameCls : other = classOf schema record := cls
  rw [sameCls] at unpackable
  -- As many fields as codes: no name is there twice.
  have codes : readFormat (classOf schema record).format =
      .ok ((layout schema record).map (·.format)) := readFormat_codes typed
  rw [codes] at read
  cases read
  have counted := (packAll_eq_ok.mp packed).1.length_eq
  have valued := congrArg List.length values
  rw [List.length_map, List.length_map] at valued
  rw [List.length_map, ← valued] at counted
  have annotations : ((layout schema record).map (·.name)).Nodup := by
    refine nodup_iff_length_eraseDups.mp ?_
    rw [List.length_map]
    exact counted.symm
  have fields : (classOf schema record).fields = (layout schema record).map (·.name) :=
    eraseDups_of_nodup annotations
  rw [fields] at expected values
  have call := loads.keywords
  rw [call_names] at call
  rw [annotations_eq accepted member] at annotations expected values
  refine ⟨⟨?_, (List.nodup_append.mp call).2.1⟩, callable, packable, unpackable⟩
  have whole : (schema.headerNames ++ bodyNames schema record).Perm
      (common ++ bodyNames schema record) := by
    refine (List.perm_ext_iff_of_nodup annotations call).mpr fun name => ?_
    rw [← @call_names schema record]
    constructor
    · intro listed
      have bound := List.mem_map_of_mem (f := fun name => List.lookup name
        ((classOf schema record).call.map fun keyword =>
          (keyword.1, keyword.2.value module fun _ => 0))) listed
      rw [values] at bound
      obtain ⟨value, -, looked⟩ := List.mem_map.mp bound
      obtain ⟨keyword, given, equal⟩ := List.lookup_isSome_iff.mp (by rw [← looked]; rfl)
      obtain ⟨argument, listed, rfl⟩ := List.mem_map.mp given
      rw [eq_of_beq equal]
      exact List.mem_map_of_mem listed
    · intro given
      obtain ⟨argument, listed, rfl⟩ := List.mem_map.mp given
      exact expected _ (List.mem_map_of_mem listed)
  exact (List.perm_append_right_iff _).mp whole

/-- A field at the place of the first field, or of the one after a first field of two bytes. -/
theorem ReadAlike.header {version kind : Field} {rest : List Field}
    (readsVersion : ReadAlike names schema record (classOf schema record) "schema_version"
      module.schemaVersionOffset)
    (readsKind : ReadAlike names schema record (classOf schema record) "record_type"
      module.recordTypeOffset)
    (accepted : Accepted schema) (emits : Emits names schema module) (member : record ∈ schema.records)
    (named : Named schema record) (header : schema.header = version :: kind :: rest) :
    version.name = "schema_version" ∧ kind.name = "record_type" := by
  have typed := accepted.typed emits.typed member
  have distinct := named.annotations accepted member
  have start : layout schema record = version :: kind :: (rest ++
      record.fields.mergeSort (fun left right => right.size ≤ left.size)) := by
    rw [layout, header]
    rfl
  -- Where each of the two names is, and what is there.
  have indexed : ∀ name ∈ common, ∃ (index : Nat) (field : Field),
      (layout schema record)[index]? = some field ∧
      field.name = name := by
    intro name given
    obtain ⟨field, listed, same⟩ := List.mem_map.mp
      ((named.mem_annotations accepted member).mpr (List.mem_append_left _ given))
    obtain ⟨index, found⟩ := List.mem_iff_getElem?.mp listed
    exact ⟨index, field, found, same⟩
  obtain ⟨versionIndex, versionField, atVersion, versionNamed⟩ := indexed "schema_version" (by decide)
  obtain ⟨kindIndex, kindField, atKind, kindNamed⟩ := indexed "record_type" (by decide)
  have versionPlace := readsVersion.python
  have kindPlace := readsKind.python
  rw [← Option.some.inj ((offsetof_version).symm.trans readsVersion.cpp)] at versionPlace
  rw [← Option.some.inj ((offsetof_kind).symm.trans readsKind.cpp)] at kindPlace
  have first : (layout schema record)[0]? = some version := by rw [start]; rfl
  have second : (layout schema record)[1]? = some kind := by rw [start]; rfl
  have placeFirst := get?_placed distinct first
  have placeSecond := get?_placed distinct second
  have isVersion : versionIndex = 0 := by
    refine index_of_place typed distinct atVersion first ?_
    rw [versionNamed, placeFirst]
    refine Eq.trans versionPlace ?_
    rw [start]
    rfl
  rw [isVersion, first] at atVersion
  cases atVersion
  have size := (readsVersion.width version (start ▸ List.mem_cons_self) versionNamed).1
  have isKind : kindIndex = 1 := by
    refine index_of_place typed distinct atKind second ?_
    rw [kindNamed, placeSecond]
    refine Eq.trans kindPlace ?_
    rw [start, List.map_cons, List.map_cons, places, places, size]
    rfl
  rw [isKind, second] at atKind
  cases atKind
  exact ⟨versionNamed, kindNamed⟩

theorem CppHeader.Compiles.enums_nodup (compiles : (emitHpp names schema).Compiles names) :
    (schema.enums.map (·.name)).Nodup := by
  obtain ⟨first, -, -⟩ := List.nodup_append.mp compiles.declared
  have all := (List.nodup_append.mp first).2.1
  rw [names_cppEnums] at all
  exact (List.nodup_cons.mp all).2

theorem CppHeader.Compiles.meanings_layout (compiles : (emitHpp names schema).Compiles names)
    (member : record ∈ schema.records) :
    ∀ field ∈ layout schema record, ∀ other ∈ layout schema record, other.enum ≠ some field.name := by
  intro field listed other otherListed named
  have apart := compiles.meanings _ (List.mem_map_of_mem member) (cppMember field)
    (List.mem_map_of_mem listed) (cppMember other) (List.mem_map_of_mem otherListed)
  rw [name_cppMember] at apart
  exact apart (type_cppMember.mpr named)

/-- What the modules of a schema agree on, they take from a regular header and body. -/
theorem SameBytes.regular (same : SameBytes names schema module record (classOf schema record))
    (accepted : Accepted schema) (emits : Emits names schema module) (member : record ∈ schema.records)
    (loads : (classOf schema record).Loads names) (compiles : (emitHpp names schema).Compiles names) :
    Regular names schema record := by
  obtain ⟨named, callable, packable, unpackable⟩ := same.named accepted emits member loads
  have typed := accepted.typed emits.typed member
  have five : schema.header.length = 5 := by
    have counted := named.header.length_eq
    rw [Schema.headerNames, List.length_map] at counted
    exact counted
  obtain ⟨version, kind, rest, header⟩ : ∃ version kind rest,
      schema.header = version :: kind :: rest := by
    cases header : schema.header with
    | nil =>
        rw [header] at five
        cases five
    | cons version others =>
        cases others with
        | nil =>
            rw [header] at five
            cases five
        | cons kind rest => exact ⟨version, kind, rest, rfl⟩
  obtain ⟨versionName, kindName⟩ := same.version.header same.kind accepted emits member named header
  have start : layout schema record = version :: kind :: (rest ++
      record.fields.mergeSort (fun left right => right.size ≤ left.size)) := by
    rw [layout, header]
    rfl
  have isVersion : version ∈ layout schema record := start ▸ List.mem_cons_self
  have isKind : kind ∈ layout schema record := start ▸ List.mem_cons_of_mem _ List.mem_cons_self
  have versionSize := (same.version.width version isVersion versionName).1
  have kindSize := (same.kind.width kind isKind kindName).1
  -- One record is enough to tell what the two constants are packed as.
  have zeros : InRange schema record fun _ => 0 := by
    intro field _ _ type _
    refine IntFormat.fits_zero ?_
    rw [type.width_format]
    exact type.size_pos.ne'
  obtain ⟨made, bytes, new, pack, back⟩ := same.roundTrip _ zeros
  rw [named.new accepted member module _ callable] at new
  cases new
  obtain ⟨-, formats, read, packed⟩ := pack_eq_ok.mp pack
  have codes : readFormat (classOf schema record).format =
      .ok ((layout schema record).map (·.format)) := readFormat_codes typed
  rw [codes] at read
  cases read
  have versionValue : valueOf module record (fun _ => 0) version.name = schema.schemaVersion := by
    rw [valueOf, if_pos versionName, emits.schemaVersion]
  have kindValue : valueOf module record (fun _ => 0) kind.name = record.recordType := by
    rw [valueOf, kindName]
    rfl
  simp only [start, List.map_cons, versionValue, kindValue] at packed
  obtain ⟨versionFits, others⟩ := List.forall₂_cons.mp (packAll_eq_ok.mp packed).1
  obtain ⟨kindFits, -⟩ := List.forall₂_cons.mp others
  obtain ⟨peekedVersion, peekedKind⟩ := peeks (version.width_format.trans versionSize)
    (kind.width_format.trans kindSize) packed
  obtain ⟨agreed, recordType, cls, found, dispatched, unpacked⟩ := unpackAny_eq_ok.mp back
  rw [PyModule.peekSchemaVersion,
    ← Option.some.inj ((offsetof_version).symm.trans same.version.cpp), peekedVersion,
    emits.schemaVersion] at agreed
  rw [PyModule.peekRecordType,
    ← Option.some.inj ((offsetof_kind).symm.trans same.kind.cpp), peekedKind] at found
  obtain ⟨-, otherFormats, -, -, -, made⟩ := unpack_eq_ok.mp unpacked
  obtain ⟨other, -, otherKind, otherClass⟩ := (emits.recordByType accepted).mp dispatched
  have ownKind : record.recordType % 65536 = record.recordType := by
    have sameClass : classOf schema record = classOf schema other :=
      (congrArg PyRecord.cls made).trans otherClass.symm
    have sameKind : record.recordType = other.recordType := congrArg PyClass.recordType sameClass
    exact (Except.ok.inj found).trans (otherKind.symm.trans sameKind.symm)
  have versionNonneg : 0 ≤ schema.schemaVersion := by
    rw [← Except.ok.inj agreed]
    exact Int.emod_nonneg _ (by decide)
  have kindNonneg : 0 ≤ record.recordType := by
    rw [← ownKind]
    exact Int.emod_nonneg _ (by decide)
  refine ⟨⟨version, kind, rest, header, ⟨versionName, versionSize, versionFits, versionNonneg⟩,
    ⟨kindName, kindSize, kindFits, kindNonneg⟩, ?_⟩, ?_, ?_, ?_, ?_,
    compiles.meanings_layout member⟩
  · have five := named.header
    rw [Schema.headerNames, header, List.map_cons, List.map_cons, versionName, kindName] at five
    exact (List.perm_cons _).mp ((List.perm_cons _).mp five)
  · exact (bodyNames_perm accepted member).nodup_iff.mp named.body
  · intro field own
    have listed : field.name ∈ bodyNames schema record :=
      (bodyNames_perm accepted member).mem_iff.mpr (List.mem_map_of_mem own)
    have annotated : field.name ∈ (classOf schema record).annotations :=
      (named.mem_annotations accepted member).mpr (List.mem_append_right _ listed)
    have notCls : field.name ≠ "cls" := by
      intro isCls
      have parameters := (List.nodup_cons.mp loads.parameters).1
      exact parameters (List.mem_cons_of_mem _ (isCls ▸ listed))
    intro isReserved
    simp only [reserved, List.mem_cons, List.not_mem_nil, or_false] at isReserved
    rcases isReserved with isCls | isNew | isPack | isUnpack | isFormat | isSize
    · exact notCls isCls
    · exact callable (isNew ▸ annotated)
    · exact packable (isPack ▸ annotated)
    · exact unpackable (isUnpack ▸ annotated)
    · exact loads.format (isFormat ▸ annotated)
    · exact loads.size.1 (isSize ▸ annotated)
  · exact fun field listed => loads.members field.name (List.mem_map_of_mem listed)
  · obtain ⟨ends, python, cpp, -⟩ := same.places
    have pythonPlaces := structPlaces_ok typed
    rw [show '<' :: (layout schema record).map (·.code) = (classOf schema record).format from rfl,
      python] at pythonPlaces
    cases pythonPlaces
    exact (places_iff accepted compiles.enums_nodup emits.typed member).mp cpp

/-! ## From the schema to the modules -/

theorem Regular.named (regular : Regular names schema record) (accepted : Accepted schema)
    (member : record ∈ schema.records) : Named schema record := by
  obtain ⟨version, kind, rest, header, isVersion, isKind, others⟩ := regular.header
  refine ⟨?_, (bodyNames_perm accepted member).nodup_iff.mpr regular.distinct⟩
  rw [Schema.headerNames, header, List.map_cons, List.map_cons, isVersion.name, isKind.name]
  exact (others.cons _).cons _

/-- No field has a name that the class uses. -/
theorem Regular.free (regular : Regular names schema record) (accepted : Accepted schema)
    (member : record ∈ schema.records) {name : String} (used : name ∈ reserved) :
    name ∉ (classOf schema record).annotations := by
  intro annotated
  cases List.mem_append.mp (((regular.named accepted member).mem_annotations accepted member).mp
    annotated) with
  | inl given =>
      have apart : ∀ name ∈ reserved, name ∉ common := by decide
      exact apart name used given
  | inr own =>
      obtain ⟨field, listed, rfl⟩ := List.mem_map.mp ((bodyNames_perm accepted member).mem_iff.mp own)
      exact regular.unreserved field listed used

theorem Regular.loads (regular : Regular names schema record) (accepted : Accepted schema)
    (typed : ∀ field ∈ schema.header, field.Typed) (member : record ∈ schema.records)
    (name : names.type record.name) : (classOf schema record).Loads names := by
  have named := regular.named accepted member
  have own : ∀ name ∈ reserved, name ∉ bodyNames schema record := fun name used listed =>
    regular.free accepted member used
      ((named.mem_annotations accepted member).mpr (List.mem_append_right _ listed))
  refine ⟨name, ?_, by rw [call_names]; exact named.call, ?_, regular.free accepted member (by decide),
    regular.free accepted member (by decide), ?_⟩
  · have time : "timestamp_ns" ∉ bodyNames schema record := fun listed =>
      bodyNames_apart listed (named.header.mem_iff.mpr (by decide))
    refine List.nodup_cons.mpr ⟨fun listed => ?_, List.nodup_cons.mpr ⟨time, named.body⟩⟩
    cases List.mem_cons.mp listed with
    | inl same => exact absurd same (by decide)
    | inr body => exact own "cls" (by decide) body
  · intro name annotated
    obtain ⟨field, listed, rfl⟩ := List.mem_map.mp annotated
    exact regular.members field listed
  · have widths : ((layout schema record).map (·.format)).map (·.width) =
        (layout schema record).map (·.size) := by
      rw [List.map_map]
      exact List.map_congr_left fun field _ => field.width_format
    rw [classOf, calcsize, readFormat_codes (accepted.typed typed member), Fault.ok_bind, widths]

/-- The first two places, where the first field has two bytes. -/
theorem first_places {fields rest : List Field} {version kind : Field}
    (start : fields = version :: kind :: rest) (distinct : (fields.map (·.name)).Nodup)
    (size : version.size = 2) :
    (Dict.ofEntries (placed 0 fields)).get? version.name = some 0 ∧
      (Dict.ofEntries (placed 0 fields)).get? kind.name = some 2 := by
  have first := @get?_placed version fields distinct 0 (by rw [start]; rfl)
  have second := @get?_placed kind fields distinct 1 (by rw [start]; rfl)
  refine ⟨first.trans ?_, second.trans ?_⟩
  · rw [start]
    rfl
  · rw [start, List.map_cons, List.map_cons, places, places, size]
    rfl

/-- The common fields are where the generator tells the peeks to look, and `RecordHeader` has them. -/
theorem Regular.readAlike (regular : Regular names schema record) (accepted : Accepted schema)
    (emits : Emits names schema module) (member : record ∈ schema.records) :
    ReadAlike names schema record (classOf schema record) "schema_version" module.schemaVersionOffset ∧
      ReadAlike names schema record (classOf schema record) "record_type" module.recordTypeOffset ∧
      module.schemaVersionOffset = 0 ∧ module.recordTypeOffset = 2 := by
  have named := regular.named accepted member
  obtain ⟨version, kind, rest, header, isVersion, isKind, others⟩ := regular.header
  have distinct := named.annotations accepted member
  have start : layout schema record = version :: kind :: (rest ++
      record.fields.mergeSort (fun left right => right.size ≤ left.size)) := by
    rw [layout, header]
    rfl
  have headerDistinct : (schema.header.map (·.name)).Nodup :=
    named.header.nodup_iff.mpr common_nodup
  have inHeader := first_places header headerDistinct isVersion.size
  have inRecord := first_places start distinct isVersion.size
  rw [isVersion.name, isKind.name] at inHeader inRecord
  have versionPlace : module.schemaVersionOffset = 0 :=
    Option.some.inj (emits.version.symm.trans inHeader.1)
  have kindPlace : module.recordTypeOffset = 2 := Option.some.inj (emits.kind.symm.trans inHeader.2)
  -- A name is that of one field only.
  have only : ∀ field ∈ layout schema record, ∀ other ∈ layout schema record,
      field.name = other.name → field = other := fun field listed other isOther same =>
    List.inj_on_of_nodup_map distinct listed isOther same
  refine ⟨⟨?_, ?_, fun field listed same => ?_⟩, ⟨?_, ?_, fun field listed same => ?_⟩,
    versionPlace, kindPlace⟩
  · rw [versionPlace]
    exact inRecord.1
  · rw [versionPlace]
    exact offsetof_version
  · obtain rfl := only field listed version (start ▸ List.mem_cons_self)
      (same.trans isVersion.name.symm)
    rw [isVersion.size]
    exact ⟨rfl, rfl⟩
  · rw [kindPlace]
    exact inRecord.2
  · rw [kindPlace]
    exact offsetof_kind
  · obtain rfl := only field listed kind (start ▸ List.mem_cons_of_mem _ List.mem_cons_self)
      (same.trans isKind.name.symm)
    rw [isKind.size]
    exact ⟨rfl, @sizeof_recordType names schema⟩

/-- Every value of a new record fits its field. -/
theorem Regular.fits (regular : Regular names schema record) (accepted : Accepted schema)
    (emits : Emits names schema module) (member : record ∈ schema.records) {arguments : String → Int}
    (inRange : InRange schema record arguments) : ∀ field ∈ layout schema record,
      field.format.Fits (valueOf module record arguments field.name) := by
  have named := regular.named accepted member
  have typed := accepted.typed emits.typed member
  obtain ⟨version, kind, rest, header, isVersion, isKind, others⟩ := regular.header
  have distinct := named.annotations accepted member
  have start : layout schema record = version :: kind :: (rest ++
      record.fields.mergeSort (fun left right => right.size ≤ left.size)) := by
    rw [layout, header]
    rfl
  intro field listed
  obtain ⟨type, -, size, format, known⟩ := (typed field listed).wireType
  have wide : field.format.width ≠ 0 := by
    rw [field.width_format]
    exact (typed field listed).size_pos.ne'
  have only : ∀ other ∈ layout schema record, field.name = other.name → field = other :=
    fun other isOther same => List.inj_on_of_nodup_map distinct listed isOther same
  unfold valueOf
  split
  · rename_i same
    obtain rfl := only version (start ▸ List.mem_cons_self) (same.trans isVersion.name.symm)
    rw [emits.schemaVersion]
    exact isVersion.fits
  · split
    · rename_i same
      obtain rfl := only kind (start ▸ List.mem_cons_of_mem _ List.mem_cons_self)
        (same.trans isKind.name.symm)
      exact isKind.fits
    · split
      · exact IntFormat.fits_zero wide
      · rename_i notVersion notKind notSeq
        rw [← format]
        refine inRange field listed ?_ type known
        by_cases time : field.name = "timestamp_ns"
        · exact .inl time
        · right
          intro inHeader
          have given := named.header.mem_iff.mp inHeader
          simp only [common, List.mem_cons, List.not_mem_nil, or_false] at given
          tauto

/-- A common constant is what an unsigned reading of its two bytes gives. -/
theorem Common.wraps {field : Field} {name : String} {value : Int} (common : Common field name value) :
    value % 65536 = value := by
  have width : field.format.width = 2 := field.width_format.trans common.size
  have fits := common.fits
  unfold IntFormat.Fits at fits
  rw [width] at fits
  refine Int.emod_eq_of_lt common.nonneg ?_
  split at fits
  · exact fits.2.trans (by decide)
  · exact fits.2

/-- A record of a regular schema is read back as it was made. -/
theorem Regular.roundTrip (regular : Regular names schema record) (accepted : Accepted schema)
    (emits : Emits names schema module) (member : record ∈ schema.records) {arguments : String → Int}
    (inRange : InRange schema record arguments) :
    ∃ made bytes, (classOf schema record).new module arguments = .ok made ∧ made.pack = .ok bytes ∧
      module.unpackAny bytes = .ok made := by
  have named := regular.named accepted member
  have typed := accepted.typed emits.typed member
  have codes : readFormat (classOf schema record).format =
      .ok ((layout schema record).map (·.format)) := readFormat_codes typed
  have fits := regular.fits accepted emits member inRange
  have each : List.Forall₂ IntFormat.Fits ((layout schema record).map (·.format))
      (((layout schema record).map (·.name)).map (valueOf module record arguments)) := by
    rw [List.map_map, List.forall₂_map_left_iff, List.forall₂_map_right_iff]
    exact List.forall₂_same.mpr fits
  have packed := packAll_eq_ok.mpr ⟨each, rfl⟩
  refine ⟨_, _, named.new accepted member module arguments (regular.free accepted member (by decide)),
    pack_eq_ok.mpr ⟨regular.free accepted member (by decide), _, codes, packed⟩, ?_⟩
  obtain ⟨-, -, versionPlace, kindPlace⟩ := regular.readAlike accepted emits member
  obtain ⟨version, kind, rest, header, isVersion, isKind, -⟩ := regular.header
  have start : layout schema record = version :: kind :: (rest ++
      record.fields.mergeSort (fun left right => right.size ≤ left.size)) := by
    rw [layout, header]
    rfl
  have versionValue : valueOf module record arguments version.name = schema.schemaVersion := by
    rw [valueOf, if_pos isVersion.name, emits.schemaVersion]
  have kindValue : valueOf module record arguments kind.name = record.recordType := by
    rw [valueOf, isKind.name]
    rfl
  have peeked := packed
  rw [start] at peeked
  simp only [List.map_cons, versionValue, kindValue] at peeked
  obtain ⟨peekedVersion, peekedKind⟩ := peeks (version.width_format.trans isVersion.size)
    (kind.width_format.trans isKind.size) peeked
  rw [isVersion.wraps] at peekedVersion
  rw [isKind.wraps] at peekedKind
  have own : (classOf schema record).fields = (layout schema record).map (·.name) :=
    eraseDups_of_nodup (named.annotations accepted member)
  refine unpackAny_eq_ok.mpr ⟨?_, record.recordType, classOf schema record, ?_,
    (emits.recordByType accepted).mpr ⟨record, member, rfl, rfl⟩, unpack_eq_ok.mpr
      ⟨regular.free accepted member (by decide), _, codes, length_of_packAll packed, ?_, ?_⟩⟩
  · rw [PyModule.peekSchemaVersion, versionPlace, emits.schemaVersion, start]
    simp only [List.map_cons, versionValue, kindValue]
    exact peekedVersion
  · rw [PyModule.peekRecordType, kindPlace, start]
    simp only [List.map_cons, versionValue, kindValue]
    exact peekedKind
  · rw [own, List.length_map, List.length_map]
  · refine congrArg (PyRecord.mk _) (takeAll_of_packAll (fun format listed => ?_) packed).symm
    obtain ⟨field, isField, rfl⟩ := List.mem_map.mp listed
    rw [field.width_format]
    exact (typed field isField).size_pos.ne'

theorem Regular.sameBytes (regular : Regular names schema record) (accepted : Accepted schema)
    (distinct : (schema.enums.map (·.name)).Nodup) (emits : Emits names schema module)
    (member : record ∈ schema.records) :
    SameBytes names schema module record (classOf schema record) := by
  obtain ⟨version, kind, -, -⟩ := regular.readAlike accepted emits member
  have typed := accepted.typed emits.typed member
  have apart := (regular.named accepted member).annotations accepted member
  exact ⟨⟨_, structPlaces_ok typed,
    (places_iff accepted distinct emits.typed member).mpr regular.enums,
    fun index field found => get?_placed apart found⟩, version, kind,
    fun arguments inRange => regular.roundTrip accepted emits member inRange⟩

/-! ## Names of types -/

/-- Both modules declare an enumeration exactly when the schema's is fit for it. -/
theorem Enum.declarable_iff {enum : Enum} (typed : ∃ type, types enum.underlying = some type) :
    enum.Declarable names ↔ (pyEnum enum).Loads names ∧ (cppEnum enum).Compiles names := by
  obtain ⟨type, found⟩ := typed
  have integer : cppInteger (cppEnum enum).underlying = some type.format := by
    rw [cppEnum, found]
    exact cppInteger_cpp type
  constructor
  · intro declarable
    refine ⟨⟨declarable.name, declarable.distinct, declarable.enumerators, declarable.body⟩,
      declarable.name, declarable.distinct, declarable.enumerators, fun value member => ?_⟩
    obtain ⟨literal, fits⟩ := declarable.values value member
    exact ⟨literal, type.format, integer, fits type found⟩
  · rintro ⟨loads, compiles⟩
    refine ⟨loads.name, loads.distinct, loads.members, fun value member => ?_, loads.body⟩
    obtain ⟨literal, format, declared, fits⟩ := compiles.values value member
    cases integer.symm.trans declared
    exact ⟨literal, fun other same => Option.some.inj (found.symm.trans same) ▸ fits⟩

theorem Accepted.enumerations (accepted : Accepted schema) :
    ∀ enum ∈ schema.enumerations names, ∃ type, types enum.underlying = some type := by
  intro enum member
  cases List.mem_cons.mp member with
  | inl synthesised => exact ⟨.u16, synthesised ▸ rfl⟩
  | inr declared => exact accepted.underlying enum declared

theorem Emits.typeNames {module : PyModule} (emits : Emits names schema module) :
    module.enums.map (·.name) = (schema.enumerations names).map (·.name) ∧
      module.classes.map (·.name) = schema.records.map (·.name) := by
  rw [emits.enums, emits.classes, List.map_map, List.map_map]
  exact ⟨rfl, rfl⟩

theorem declared_eq : constants ++ (emitHpp names schema).enums.map (·.name) ++
    "RecordHeader" :: (emitHpp names schema).structs.map (·.1) =
      constants ++ (schema.enumerations names).map (·.name) ++
        "RecordHeader" :: schema.records.map (·.name) := by
  rw [emitHpp, List.map_map, List.map_map]
  rfl

/-- Modules that can be used have usable names. -/
theorem PyModule.Loads.nameable (loads : module.Loads names) (accepted : Accepted schema)
    (emits : Emits names schema module) (compiles : (emitHpp names schema).Compiles names) :
    Nameable names schema := by
  refine ⟨fun enum member => ?_, declared_eq ▸ compiles.declared, fun record member => ?_⟩
  · have python := loads.enums (pyEnum enum) (emits.enums ▸ List.mem_map_of_mem member)
    have cpp := compiles.enums (cppEnum enum) (List.mem_map_of_mem member)
    exact (Enum.declarable_iff (accepted.enumerations enum member)).mpr ⟨python, cpp⟩
  · have listed : classOf schema record ∈ module.classes :=
      emits.classes ▸ List.mem_map_of_mem member
    exact ⟨(loads.classes _ listed).name, loads.records _ listed,
      emits.typeNames.2 ▸ loads.structs _ listed⟩

theorem Nameable.loads (nameable : Nameable names schema) (accepted : Accepted schema)
    (emits : Emits names schema module)
    (regular : ∀ record ∈ schema.records, Regular names schema record) : module.Loads names := by
  have classes : ∀ cls ∈ module.classes, ∃ record ∈ schema.records, classOf schema record = cls :=
    fun cls listed => List.mem_map.mp (emits.classes ▸ listed)
  refine ⟨fun enum listed => ?_, fun cls listed => ?_, fun name constant => ?_,
    fun cls listed => ?_, fun cls listed => ?_⟩
  · rw [emits.enums] at listed
    obtain ⟨enum, member, rfl⟩ := List.mem_map.mp listed
    exact ((Enum.declarable_iff (accepted.enumerations enum member)).mp
      (nameable.enums enum member)).1
  · obtain ⟨record, member, rfl⟩ := classes cls listed
    exact (regular record member).loads accepted emits.typed member (nameable.records record member).1
  · rw [emits.typeNames.1, emits.typeNames.2]
    obtain ⟨first, -, apart⟩ := List.nodup_append.mp nameable.distinct
    obtain ⟨-, -, apartEnums⟩ := List.nodup_append.mp first
    exact ⟨fun listed => apartEnums name constant name listed rfl, fun listed =>
      apart name (List.mem_append_left _ constant) name (List.mem_cons_of_mem _ listed) rfl⟩
  · obtain ⟨record, member, rfl⟩ := classes cls listed
    rw [emits.typeNames.2]
    exact (nameable.records record member).2.2
  · obtain ⟨record, member, rfl⟩ := classes cls listed
    exact (nameable.records record member).2.1

theorem Nameable.compiles (nameable : Nameable names schema) (accepted : Accepted schema)
    (regular : ∀ record ∈ schema.records, Regular names schema record) :
    (emitHpp names schema).Compiles names := by
  refine ⟨declared_eq ▸ nameable.distinct, fun enum listed => ?_, fun declared listed => ?_,
    fun declared listed member memberListed other otherListed named => ?_⟩
  · obtain ⟨enum, member, rfl⟩ := List.mem_map.mp listed
    exact ((Enum.declarable_iff (accepted.enumerations enum member)).mp
      (nameable.enums enum member)).2
  · obtain ⟨record, member, rfl⟩ := List.mem_map.mp listed
    refine ⟨(nameable.records record member).1, ?_⟩
    have distinct := ((regular record member).named accepted member).annotations accepted member
    rw [List.map_map]
    exact (List.map_congr_left fun field _ => (name_cppMember field).symm) ▸ distinct
  · obtain ⟨record, recordListed, rfl⟩ := List.mem_map.mp listed
    obtain ⟨field, fieldListed, rfl⟩ := List.mem_map.mp memberListed
    obtain ⟨otherField, otherFieldListed, rfl⟩ := List.mem_map.mp otherListed
    rw [name_cppMember] at named
    exact (regular record recordListed).meanings field fieldListed otherField otherFieldListed
      (type_cppMember.mp named)

/-- The two modules of an accepted schema can be used and describe the same bytes exactly when its
header types are known, there is a record type among them, the types it declares have usable and
distinct names, and every record is regular: the header begins with a schema version and a record
type of two bytes that hold their constants, the other three of its names are those that `new` gives,
no name is used twice, and no field of the synthesised enumeration is of another width. -/
theorem one_layout_iff (names : Names) (schema : Schema) (valid : validate names schema = .ok ()) :
    OneLayout names schema ↔ ((∀ field ∈ schema.header, field.Typed) ∧
      "record_type" ∈ schema.headerNames) ∧ Nameable names schema ∧
        ∀ record ∈ schema.records, Regular names schema record := by
  have accepted := validate_ok valid
  constructor
  · rintro ⟨module, emitted, loads, compiles, each⟩
    have emits := (emitPy_eq_ok accepted).mp emitted
    refine ⟨⟨emits.typed, emits.header_kind⟩, loads.nameable accepted emits compiles,
      fun record member => ?_⟩
    obtain ⟨cls, isClass, same⟩ := each record member
    rw [pyClass_ok (accepted.typed emits.typed member)] at isClass
    cases isClass
    refine same.regular accepted emits member (loads.classes _ ?_) compiles
    rw [emits.classes]
    exact List.mem_map_of_mem member
  · rintro ⟨⟨typed, kind⟩, nameable, regular⟩
    obtain ⟨module, emitted⟩ := emitPy_total accepted typed kind
    have emits := (emitPy_eq_ok accepted).mp emitted
    have compiles := nameable.compiles accepted regular
    exact ⟨module, emitted, nameable.loads accepted emits regular, compiles, fun record member =>
      ⟨classOf schema record, pyClass_ok (accepted.typed typed member),
        (regular record member).sameBytes accepted compiles.enums_nodup emits member⟩⟩

/-! ## The schema of the repository, and one that slips through -/

/-- For names in lower case that no language keeps for itself. -/
def plainNames : Names where
  lower := id
  isUpper := Char.isUpper
  upper ch := .singleton ch.toUpper
  type _ := True
  enumerator _ := True
  member _ := True

/-- `schema.toml`. -/
def shipped : Schema where
  schemaVersion := 2
  header :=
    [⟨"schema_version", "u16", none⟩, ⟨"record_type", "u16", some "RecordType"⟩,
     ⟨"seq_ms", "u64", none⟩, ⟨"seq_ord", "u64", none⟩, ⟨"timestamp_ns", "i64", none⟩]
  enums := [
    ⟨"Side", "u8",
      [⟨"BUY", 1⟩, ⟨"SELL", 2⟩], true⟩,
    ⟨"Tif", "u8",
      [⟨"GTC", 1⟩, ⟨"IOC", 2⟩], true⟩,
    ⟨"CancelReason", "u8",
      [⟨"USER_REQUESTED", 1⟩, ⟨"IOC_EXPIRED", 2⟩], true⟩,
    ⟨"RejectReason", "u16",
      [⟨"UNKNOWN_SYMBOL", 1⟩, ⟨"INVALID_PRICE", 2⟩, ⟨"INVALID_QUANTITY", 3⟩, ⟨"INVALID_SIDE", 4⟩,
       ⟨"INVALID_TIF", 5⟩, ⟨"INSUFFICIENT_CASH", 6⟩, ⟨"INSUFFICIENT_POSITION", 7⟩,
       ⟨"UNKNOWN_ORDER", 8⟩, ⟨"NOT_ORDER_OWNER", 9⟩, ⟨"DUPLICATE_CLIENT_ORDER_ID", 10⟩,
       ⟨"EXCHANGE_HALTED", 11⟩, ⟨"ACCOUNT_NOT_FOUND", 12⟩, ⟨"ACCOUNT_ALREADY_EXISTS", 13⟩],
      true⟩]
  records := [
    ⟨"SubmitOrder", 1,
      [⟨"client_order_id", "u64", none⟩, ⟨"user_id", "u64", none⟩, ⟨"price_ticks", "i64", none⟩,
       ⟨"qty", "i64", none⟩, ⟨"symbol_id", "i16", none⟩, ⟨"side", "u8", some "Side"⟩,
       ⟨"tif", "u8", some "Tif"⟩]⟩,
    ⟨"CancelOrder", 2,
      [⟨"client_order_id", "u64", none⟩, ⟨"user_id", "u64", none⟩,
       ⟨"target_client_order_id", "u64", none⟩]⟩,
    ⟨"CreateAccount", 3,
      [⟨"client_order_id", "u64", none⟩, ⟨"user_id", "u64", none⟩]⟩,
    ⟨"CreditCash", 4,
      [⟨"client_order_id", "u64", none⟩, ⟨"user_id", "u64", none⟩, ⟨"amount_ticks", "i64", none⟩]⟩,
    ⟨"ConfigureReplay", 5,
      [⟨"client_order_id", "u64", none⟩, ⟨"real_seconds_per_simulated_minute", "i64", none⟩,
       ⟨"config_hash_hi", "u64", none⟩, ⟨"config_hash_lo", "u64", none⟩]⟩,
    ⟨"OrderAccepted", 10,
      [⟨"order_id", "u64", none⟩, ⟨"client_order_id", "u64", none⟩, ⟨"user_id", "u64", none⟩,
       ⟨"price_ticks", "i64", none⟩, ⟨"qty", "i64", none⟩, ⟨"symbol_id", "i16", none⟩,
       ⟨"side", "u8", some "Side"⟩, ⟨"tif", "u8", some "Tif"⟩]⟩,
    ⟨"OrderRejected", 11,
      [⟨"client_order_id", "u64", none⟩, ⟨"user_id", "u64", none⟩, ⟨"symbol_id", "i16", none⟩,
       ⟨"reason", "u16", some "RejectReason"⟩]⟩,
    ⟨"Fill", 12,
      [⟨"maker_order_id", "u64", none⟩, ⟨"taker_order_id", "u64", none⟩,
       ⟨"maker_user_id", "u64", none⟩, ⟨"taker_user_id", "u64", none⟩,
       ⟨"price_ticks", "i64", none⟩, ⟨"qty", "i64", none⟩, ⟨"symbol_id", "i16", none⟩,
       ⟨"aggressor_side", "u8", some "Side"⟩]⟩,
    ⟨"OrderCancelled", 13,
      [⟨"order_id", "u64", none⟩, ⟨"client_order_id", "u64", none⟩, ⟨"user_id", "u64", none⟩,
       ⟨"remaining_qty", "i64", none⟩, ⟨"symbol_id", "i16", none⟩,
       ⟨"reason", "u8", some "CancelReason"⟩]⟩,
    ⟨"BookChanged", 14,
      [⟨"price_ticks", "i64", none⟩, ⟨"qty_at_level", "i64", none⟩, ⟨"symbol_id", "i16", none⟩,
       ⟨"side", "u8", some "Side"⟩]⟩,
    ⟨"AccountCreated", 15,
      [⟨"client_order_id", "u64", none⟩, ⟨"user_id", "u64", none⟩,
       ⟨"initial_cash_ticks", "i64", none⟩]⟩,
    ⟨"CashCredited", 16,
      [⟨"client_order_id", "u64", none⟩, ⟨"user_id", "u64", none⟩, ⟨"amount_ticks", "i64", none⟩]⟩,
    ⟨"ReplayConfigured", 17,
      [⟨"client_order_id", "u64", none⟩, ⟨"real_seconds_per_simulated_minute", "i64", none⟩,
       ⟨"config_hash_hi", "u64", none⟩, ⟨"config_hash_lo", "u64", none⟩]⟩]

theorem shipped_valid : validate plainNames shipped = .ok () := by decide +kernel

theorem shipped_regular : ∀ record ∈ shipped.records, Regular plainNames shipped record := by
  intro record member
  have kinds : ∀ record ∈ shipped.records,
      IntFormat.Fits ⟨2, false⟩ record.recordType ∧ 0 ≤ record.recordType := by decide +kernel
  have distinct : ∀ record ∈ shipped.records, (record.fields.map (·.name)).Nodup := by
    decide +kernel
  have unreserved : ∀ record ∈ shipped.records, ∀ field ∈ record.fields, field.name ∉ reserved := by
    decide +kernel
  have sized : ∀ record ∈ shipped.records, ∀ field ∈ shipped.header ++ record.fields,
      field.enum = some "RecordType" → field.size = 2 := by decide +kernel
  have apart : ∀ record ∈ shipped.records, ∀ field ∈ shipped.header ++ record.fields,
      ∀ other ∈ shipped.header ++ record.fields, other.enum ≠ some field.name := by decide +kernel
  have listed : ∀ field ∈ layout shipped record, field ∈ shipped.header ++ record.fields :=
    fun field present => List.mem_append.mpr (mem_layout.mp present)
  exact ⟨⟨_, _, _, rfl, ⟨rfl, by decide, by decide, by decide⟩,
    ⟨rfl, by decide, (kinds record member).1, (kinds record member).2⟩, by decide⟩,
    distinct record member, unreserved record member, fun _ _ => trivial,
    fun field present => sized record member field (listed field present),
    fun field present other also => apart record member field (listed field present) other
      (listed other also)⟩

/-- `SUBMIT_ORDER` to `REPLAY_CONFIGURED`. -/
theorem shipped_recordTypes : (recordTypeEnum plainNames shipped).values =
    shipped.records.map fun record =>
      ⟨toScreamingSnake plainNames record.name, record.recordType⟩ := by
  rw [recordTypeEnum, List.mergeSort_of_pairwise (by decide +kernel)]

theorem shipped_nameable : Nameable plainNames shipped := by
  have distinct : ∀ enum ∈ shipped.enums, (enum.values.map (·.name)).Nodup := by decide +kernel
  have fits : ∀ enum ∈ shipped.enums, ∀ value ∈ enum.values, value.value.natAbs < 2 ^ 63 ∧
      (types enum.underlying).all (fun type => decide (type.format.Fits value.value)) := by
    decide +kernel
  have kinds : ∀ record ∈ shipped.records, record.recordType.natAbs < 2 ^ 63 ∧
      WireType.u16.format.Fits record.recordType := by decide +kernel
  refine ⟨fun enum member => ?_, by decide +kernel, fun record member => ?_⟩
  · cases List.mem_cons.mp member with
    | inl synthesised =>
        subst synthesised
        refine ⟨trivial, ?_, fun _ _ => trivial, fun value listed => ?_, .inr rfl⟩
        · rw [shipped_recordTypes, List.map_map]
          decide +kernel
        · rw [shipped_recordTypes] at listed
          obtain ⟨record, present, rfl⟩ := List.mem_map.mp listed
          refine ⟨(kinds record present).1, fun type found => ?_⟩
          cases found
          exact (kinds record present).2
    | inr declared =>
        have documented : ∀ enum ∈ shipped.enums, enum.documented = true := by decide
        refine ⟨trivial, distinct enum declared, fun _ _ => trivial, fun value listed => ?_,
          .inr (documented enum declared)⟩
        obtain ⟨literal, within⟩ := fits enum declared value listed
        refine ⟨literal, fun type found => ?_⟩
        rw [found, Option.all_some] at within
        exact of_decide_eq_true within
  · have free : ∀ record ∈ shipped.records, record.name ∉ PyModule.boundLast ∧
        "_S_" ++ record.name ∉ shipped.records.map (·.name) := by decide +kernel
    exact ⟨trivial, free record member⟩

/-- The modules that the repository has generated. -/
theorem shipped_one_layout : OneLayout plainNames shipped := by
  have typed : ∀ field ∈ shipped.header, ∃ type, types field.type = some type := by
    intro field member
    have known : ∀ field ∈ shipped.header, (types field.type).isSome := by decide +kernel
    exact Option.isSome_iff_exists.mp (known field member)
  exact (one_layout_iff plainNames shipped shipped_valid).mpr
    ⟨⟨typed, by decide +kernel⟩, shipped_nameable, shipped_regular⟩

/-- A schema version of one byte. -/
def narrowVersion : Schema where
  schemaVersion := 2
  header :=
    [⟨"schema_version", "u8", none⟩, ⟨"record_type", "u16", some "RecordType"⟩,
     ⟨"seq_ms", "u64", none⟩, ⟨"seq_ord", "u64", none⟩, ⟨"timestamp_ns", "i64", none⟩]
  enums := []
  records := [⟨"Ping", 1, []⟩]

/-- It is accepted, and the peek takes the first byte of the record type for the high one of the
version. -/
theorem narrow_version_disagrees :
    validate plainNames narrowVersion = .ok () ∧ ¬ OneLayout plainNames narrowVersion ∧
      (do
        let module ← emitPy plainNames narrowVersion
        let cls ← pyClass narrowVersion ⟨"Ping", 1, []⟩
        let made ← cls.new module fun _ => 0
        let bytes ← made.pack
        module.unpackAny bytes) =
          .error (.raised "unsupported schema_version 258; expected 2") := by
  refine ⟨by decide +kernel, ?_, by decide +kernel⟩
  rintro ⟨module, -, -, -, each⟩
  obtain ⟨cls, -, same⟩ := each ⟨"Ping", 1, []⟩ List.mem_cons_self
  have wide := (same.version.width ⟨"schema_version", "u8", none⟩
    (mem_layout.mpr (.inl List.mem_cons_self)) rfl).1
  exact absurd wide (by decide)

end QuantArena.Contracts.Generate
