import QuantArena.Contracts.Schema

/-! The two modules that the generator writes, as declarations rather than as text, and what the
Python one does when it is run. -/

set_option autoImplicit false

namespace QuantArena.Contracts.Generate

open Foundations

/-! ## The C++ header -/

/-- The type of a member: one of the standard library's, or an enumeration by name. -/
inductive CppType where
  | integer (name : String)
  | enumeration (name : String)
deriving DecidableEq, Repr

structure CppMember where
  type : CppType
  name : String
deriving DecidableEq, Repr

structure CppEnum where
  name : String
  underlying : String
  enumerators : List EnumValue
deriving DecidableEq, Repr

structure CppHeader where
  enums : List CppEnum
  recordHeader : List CppMember
  structs : List (String × List CppMember)

def cppMember (field : Field) : CppMember :=
  match field.enum with
  | some named => ⟨.enumeration named, field.name⟩
  | none => ⟨.integer (((types field.type).map (·.cpp)).getD ""), field.name⟩

def cppEnum (enum : Enum) : CppEnum :=
  ⟨enum.name, ((types enum.underlying).map (·.cpp)).getD "", enum.values⟩

def emitHpp (names : Names) (schema : Schema) : CppHeader where
  enums := (schema.enumerations names).map cppEnum
  recordHeader := [⟨.integer "std::uint16_t", "schema_version"⟩,
    ⟨.enumeration "RecordType", "record_type"⟩]
  structs := schema.records.map fun record => (record.name, (layout schema record).map cppMember)

/-- The standard library's integers. -/
def cppInteger (name : String) : Option IntFormat :=
  if name = "std::uint8_t" then some ⟨1, false⟩
  else if name = "std::uint16_t" then some ⟨2, false⟩
  else if name = "std::int16_t" then some ⟨2, true⟩
  else if name = "std::uint64_t" then some ⟨8, false⟩
  else if name = "std::int64_t" then some ⟨8, true⟩
  else none

def cppSizeof (name : String) : Option Nat := (cppInteger name).map (·.width)

/-- An enumeration is as wide as its underlying type. -/
def CppHeader.sizeof (header : CppHeader) : CppType → Option Nat
  | .integer name => cppSizeof name
  | .enumeration name => (header.enums.find? (·.name = name)).bind (cppSizeof ·.underlying)

/-- The members of a packed struct: where each begins, and `sizeof` the whole. -/
def CppHeader.places (header : CppHeader) (members : List CppMember) : Option (List Nat) :=
  (members.mapM fun member => header.sizeof member.type).map (Foundations.places 0)

/-- `offsetof`. -/
def CppHeader.offsetof (header : CppHeader) (members : List CppMember) (name : String) :
    Option Nat := do
  let ends ← header.places members
  let index ← members.findIdx? (·.name = name)
  ends[index]?

/-- The width of a member. -/
def CppHeader.widthof (header : CppHeader) (members : List CppMember) (name : String) :
    Option Nat := do
  let member ← members.find? (·.name = name)
  header.sizeof member.type

/-- The constants that both modules begin with. -/
def constants : List String := ["SCHEMA_VERSION", "SEQ_UNASSIGNED"]

structure CppEnum.Compiles (names : Names) (enum : CppEnum) : Prop where
  name : names.type enum.name
  distinct : (enum.enumerators.map (·.name)).Nodup
  enumerators : ∀ value ∈ enum.enumerators, names.enumerator value.name
  /-- A literal without a suffix has a sign and at most 64 bits, and nothing is narrowed. -/
  values : ∀ value ∈ enum.enumerators, value.value.natAbs < 2 ^ 63 ∧
    ∃ format, cppInteger enum.underlying = some format ∧ format.Fits value.value

/-- What a compiler asks of the header's names and of its enumerations. -/
structure CppHeader.Compiles (names : Names) (header : CppHeader) : Prop where
  declared : (constants ++ header.enums.map (·.name) ++
    "RecordHeader" :: header.structs.map (·.1)).Nodup
  enums : ∀ enum ∈ header.enums, enum.Compiles names
  structs : ∀ named ∈ header.structs, names.type named.1 ∧ (named.2.map (·.name)).Nodup
  /-- In a struct a name does not stand for a type and a member. -/
  meanings : ∀ named ∈ header.structs, ∀ member ∈ named.2, ∀ other ∈ named.2,
    other.type ≠ .enumeration member.name

/-! ## The Python module -/

/-- What an argument of the call in `new` is. -/
inductive Argument where
  | schemaVersion
  | seqUnassigned
  | literal (value : Int)
  | parameter (name : String)
deriving DecidableEq, Repr

/-- An `IntEnum`. -/
structure PyEnum where
  name : String
  members : List EnumValue
  /-- Whether its body begins with a docstring. -/
  documented : Bool
deriving DecidableEq, Repr

structure PyClass where
  name : String
  annotations : List String
  format : List Char
  size : Nat
  recordType : Int
  offsets : Dict String Nat
  /-- The parameters of `new`, after `cls`. -/
  parameters : List String
  /-- The keyword arguments that `new` calls the class with. -/
  call : List (String × Argument)
deriving DecidableEq

structure PyModule where
  schemaVersion : Int
  enums : List PyEnum
  classes : List PyClass
  recordTypeOffset : Nat
  schemaVersionOffset : Nat

def pyClass (schema : Schema) (record : Record) : Except Fault PyClass := do
  let fields := layout schema record
  let (offs, size) ← offsets fields
  let format ← structFormat fields
  let body := (fields.filter (·.name ∉ schema.headerNames)).map (·.name)
  .ok {
    name := record.name
    annotations := fields.map (·.name)
    format := format
    size := size
    recordType := record.recordType
    offsets := offs
    parameters := "timestamp_ns" :: body
    call := [("schema_version", .schemaVersion), ("record_type", .literal record.recordType),
      ("seq_ms", .seqUnassigned), ("seq_ord", .seqUnassigned),
      ("timestamp_ns", .parameter "timestamp_ns")] ++ body.map fun name => (name, .parameter name) }

def pyEnum (enum : Enum) : PyEnum := ⟨enum.name, enum.values, enum.documented⟩

def emitPy (names : Names) (schema : Schema) : Except Fault PyModule := do
  let classes ← schema.records.mapM (pyClass schema)
  let (headerOffsets, _) ← offsets schema.header
  let recordTypeOffset ← orMissing (headerOffsets.get? "record_type")
  let schemaVersionOffset ← orMissing (headerOffsets.get? "schema_version")
  .ok ⟨schema.schemaVersion, (schema.enumerations names).map pyEnum, classes, recordTypeOffset,
    schemaVersionOffset⟩

/-! ## Running it -/

/-- What a code of a format string stands for. -/
def formatOf (code : Char) : Except Fault IntFormat :=
  if code = 'B' then .ok ⟨1, false⟩
  else if code = 'H' then .ok ⟨2, false⟩
  else if code = 'h' then .ok ⟨2, true⟩
  else if code = 'Q' then .ok ⟨8, false⟩
  else if code = 'q' then .ok ⟨8, true⟩
  else .error .outOfRange

/-- A format string for little-endian integers without padding. -/
def readFormat : List Char → Except Fault (List IntFormat)
  | '<' :: codes => codes.mapM formatOf
  | _ => .error .outOfRange

def calcsize (format : List Char) : Except Fault Nat := do
  let formats ← readFormat format
  .ok (formats.map (·.width)).sum

/-- Where the items of a format string begin, and how long they are together. -/
def structPlaces (format : List Char) : Except Fault (List Nat) := do
  let formats ← readFormat format
  .ok (places 0 (formats.map (·.width)))

/-- `struct.unpack_from("<H", data, offset)[0]`. -/
def unpackUnsigned16 (data : List UInt8) (offset : Nat) : Except Fault Int :=
  if offset + 2 ≤ data.length then .ok (IntFormat.take ⟨2, false⟩ (data.drop offset)).1
  else .error .outOfRange

/-- `SEQ_UNASSIGNED` is 0. -/
def Argument.value (module : PyModule) (arguments : String → Int) : Argument → Int
  | .schemaVersion => module.schemaVersion
  | .seqUnassigned => 0
  | .literal value => value
  | .parameter name => arguments name

/-- A record: its class, and the values in the order of the class's fields. -/
structure PyRecord where
  cls : PyClass
  values : List Int
deriving DecidableEq

/-- A call that Python refuses, in words of its own. -/
def typeError : Fault := .raised "TypeError"

namespace PyClass

/-- The fields of the named tuple: annotations are a dict, and a name is in it once. -/
def fields (cls : PyClass) : List String := cls.annotations.eraseDups

/-- What a function's parameters, a call's keywords and a tuple's fields may be called, and the
attributes that the module reads while it is imported. -/
structure Loads (names : Names) (cls : PyClass) : Prop where
  name : names.type cls.name
  parameters : ("cls" :: cls.parameters).Nodup
  keywords : (cls.call.map (·.1)).Nodup
  members : ∀ name ∈ cls.annotations, names.member name
  format : "FORMAT" ∉ cls.annotations
  size : "SIZE" ∉ cls.annotations ∧ calcsize cls.format = .ok cls.size

/-- `cls(**keywords)`. -/
def build (cls : PyClass) (keywords : List (String × Int)) : Except Fault PyRecord :=
  if ∃ keyword ∈ keywords, keyword.1 ∉ cls.fields then .error typeError
  else
    match cls.fields.mapM fun name => keywords.lookup name with
    | none => .error typeError
    | some values => .ok ⟨cls, values⟩

def new (module : PyModule) (cls : PyClass) (arguments : String → Int) : Except Fault PyRecord :=
  if "new" ∈ cls.annotations then .error typeError
  else cls.build (cls.call.map fun keyword => (keyword.1, keyword.2.value module arguments))

def unpack (cls : PyClass) (data : List UInt8) : Except Fault PyRecord :=
  if "unpack" ∈ cls.annotations then .error typeError
  else do
    let formats ← readFormat cls.format
    if data.length ≠ (formats.map (·.width)).sum then .error .outOfRange
    else if formats.length ≠ cls.fields.length then .error typeError
    else .ok ⟨cls, takeAll formats data⟩

end PyClass

def PyRecord.pack (record : PyRecord) : Except Fault (List UInt8) :=
  if "pack" ∈ record.cls.annotations then .error typeError
  else do
    let formats ← readFormat record.cls.format
    packAll formats record.values

structure PyEnum.Loads (names : Names) (enum : PyEnum) : Prop where
  name : names.type enum.name
  distinct : (enum.members.map (·.name)).Nodup
  members : ∀ member ∈ enum.members, names.enumerator member.name
  /-- A class has a body. -/
  body : enum.members ≠ [] ∨ enum.documented = true

namespace PyModule

/-- What the module binds after its classes. -/
def boundLast : List String :=
  ["RECORD_BY_TYPE", "ALL_RECORDS", "_RECORD_TYPE_OFFSET", "_SCHEMA_VERSION_OFFSET",
    "peek_schema_version", "peek_record_type", "unpack_any", "parse_stream_id", "with_seq"]

/-- The module can be imported, and under their names are the constants, the records and what they
are packed by: of two things of one name, the later hides the earlier. -/
structure Loads (names : Names) (module : PyModule) : Prop where
  enums : ∀ enum ∈ module.enums, enum.Loads names
  classes : ∀ cls ∈ module.classes, cls.Loads names
  constants : ∀ name ∈ constants,
    name ∉ module.enums.map (·.name) ∧ name ∉ module.classes.map (·.name)
  /-- `_S_<record>` is the record's `struct.Struct`. -/
  structs : ∀ cls ∈ module.classes, "_S_" ++ cls.name ∉ module.classes.map (·.name)
  records : ∀ cls ∈ module.classes, cls.name ∉ boundLast

def recordByType (module : PyModule) : Dict Int PyClass :=
  .ofEntries (module.classes.map fun cls => (cls.recordType, cls))

def peekSchemaVersion (module : PyModule) (data : List UInt8) : Except Fault Int :=
  unpackUnsigned16 data module.schemaVersionOffset

def peekRecordType (module : PyModule) (data : List UInt8) : Except Fault Int :=
  unpackUnsigned16 data module.recordTypeOffset

def unpackAny (module : PyModule) (data : List UInt8) : Except Fault PyRecord := do
  let schemaVersion ← module.peekSchemaVersion data
  if schemaVersion ≠ module.schemaVersion then
    .error (.raised
      s!"unsupported schema_version {schemaVersion}; expected {module.schemaVersion}")
  else
    let recordType ← module.peekRecordType data
    match module.recordByType.get? recordType with
    | none => .error (.raised s!"unknown record_type {recordType}")
    | some cls => cls.unpack data

end PyModule

end QuantArena.Contracts.Generate
