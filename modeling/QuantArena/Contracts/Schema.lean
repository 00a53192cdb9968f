import QuantArena.Foundations.Canonical
import QuantArena.Foundations.Fault
import QuantArena.Foundations.Packed

/-! The schema of the wire records, what its generator accepts, and where it places each field.
What is only copied into comments is left out. -/

set_option autoImplicit false

namespace QuantArena.Contracts.Generate

open Foundations

/-- The closed vocabulary of `[types]`. -/
inductive WireType where
  | u8
  | u16
  | i16
  | u64
  | i64
deriving DecidableEq, Repr

namespace WireType

/-- `struct`: the code of a format string. -/
def code : WireType → Char
  | .u8 => 'B'
  | .u16 => 'H'
  | .i16 => 'h'
  | .u64 => 'Q'
  | .i64 => 'q'

def cpp : WireType → String
  | .u8 => "std::uint8_t"
  | .u16 => "std::uint16_t"
  | .i16 => "std::int16_t"
  | .u64 => "std::uint64_t"
  | .i64 => "std::int64_t"

def size : WireType → Nat
  | .u8 => 1
  | .u16 => 2
  | .i16 => 2
  | .u64 => 8
  | .i64 => 8

end WireType

/-- `[types]` of the repository, by name. -/
def types (name : String) : Option WireType :=
  if name = "u8" then some .u8
  else if name = "u16" then some .u16
  else if name = "i16" then some .i16
  else if name = "u64" then some .u64
  else if name = "i64" then some .i64
  else none

structure Field where
  name : String
  type : String
  enum : Option String
deriving DecidableEq, Repr

structure EnumValue where
  name : String
  value : Int
deriving DecidableEq, Repr

structure Enum where
  name : String
  underlying : String
  values : List EnumValue
  /-- Whether there is any text in its `doc`. -/
  documented : Bool
deriving DecidableEq, Repr

structure Record where
  name : String
  recordType : Int
  fields : List Field
deriving DecidableEq, Repr

structure Schema where
  schemaVersion : Int
  header : List Field
  enums : List Enum
  records : List Record
deriving DecidableEq, Repr

/-- What the languages make of a name: Python's `str.lower`, `str.isupper` and `str.upper`, and what
both of them let a type, an enumerator and a member of a record be called. No type is called like
something that one of the modules takes from its language. -/
structure Names where
  lower : String → String
  isUpper : Char → Bool
  upper : Char → String
  type : String → Prop
  enumerator : String → Prop
  member : String → Prop

/-! ## Validation -/

def checkValues (enum : Enum) (seen : Dict Int String) : List EnumValue → Except Fault Unit
  | [] => .ok ()
  | value :: rest =>
      match seen.get? value.value with
      | some other => .error (.raised
          s!"enum {enum.name}: value {value.value} used by both {other} and {value.name}")
      | none => checkValues enum (seen.set value.value value.name) rest

def checkEnum (enum : Enum) : Except Fault Unit :=
  if (types enum.underlying).isNone then
    .error (.raised s!"enum {enum.name}: unknown underlying type {enum.underlying}")
  else checkValues enum .empty enum.values

def checkField (names : Names) (enums : Dict String Enum) (place : String) (field : Field) :
    Except Fault Unit :=
  if (types field.type).isNone then
    .error (.raised s!"{place}: type '{field.type}' is not in the closed integer vocabulary")
  else if field.name ≠ names.lower field.name then
    .error (.raised s!"{place}: field names are snake_case")
  else
    match field.enum with
    | none => .ok ()
    | some named =>
        match enums.get? named with
        | none => .error (.raised s!"{place}: unknown enum {named}")
        | some enum =>
            if enum.underlying ≠ field.type then
              .error (.raised
                s!"{place}: declared {field.type} but enum {named} is {enum.underlying}")
            else .ok ()

/-- A field of a record's own. -/
def checkBodyField (names : Names) (enums : Dict String Enum) (headerNames : List String)
    (record : Record) (field : Field) : Except Fault Unit :=
  if field.name ∈ headerNames then
    .error (.raised s!"{record.name}.{field.name} collides with a header field")
  else checkField names enums s!"{record.name}.{field.name}" field

def checkRecords (names : Names) (enums : Dict String Enum) (headerNames : List String)
    (seenTypes : Dict Int String) (seenNames : List String) : List Record → Except Fault Unit
  | [] => .ok ()
  | record :: rest =>
      if record.name ∈ seenNames then .error (.raised s!"duplicate record name {record.name}")
      else
        match seenTypes.get? record.recordType with
        | some other => .error (.raised
            s!"record_type {record.recordType} used by both {other} and {record.name}")
        | none => do
            record.fields.forM (checkBodyField names enums headerNames record)
            checkRecords names enums headerNames (seenTypes.set record.recordType record.name)
              (seenNames ++ [record.name]) rest

def Schema.headerNames (schema : Schema) : List String := schema.header.map (·.name)

/-- `{e["name"]: e for e in schema["enums"]}`: of two under one name, the later. -/
def Schema.enumsByName (schema : Schema) : Dict String Enum :=
  .ofEntries (schema.enums.map fun enum => (enum.name, enum))

def validate (names : Names) (schema : Schema) : Except Fault Unit := do
  let enums := schema.enumsByName
  if enums.contains "RecordType" then
    .error (.raised "RecordType is synthesised from [[records]]; do not declare it by hand")
  schema.enums.forM checkEnum
  if "schema_version" ∉ schema.headerNames then
    .error (.raised "the header must carry schema_version (Success Criterion 4)")
  checkRecords names enums schema.headerNames .empty [] schema.records
  -- The types of `RecordType` fields are not looked at.
  (schema.header.filter (·.enum ≠ some "RecordType")).forM fun field =>
    checkField names enums s!"header.{field.name}" field

/-! ## The synthesised enumeration -/

def toScreamingSnake (names : Names) (name : String) : String :=
  .join (name.toList.mapIdx fun index ch =>
    if names.isUpper ch ∧ index ≠ 0 then "_" ++ names.upper ch else names.upper ch)

/-- Synthesised from the records, so that it cannot drift from them. -/
def recordTypeEnum (names : Names) (schema : Schema) : Enum where
  name := "RecordType"
  underlying := "u16"
  values := (schema.records.mergeSort fun left right => left.recordType ≤ right.recordType).map
    fun record => ⟨toScreamingSnake names record.name, record.recordType⟩
  documented := true

/-- `[record_type_enum(schema)] + list(schema["enums"])`. -/
def Schema.enumerations (names : Names) (schema : Schema) : List Enum :=
  recordTypeEnum names schema :: schema.enums

/-! ## Layout -/

/-- The key that the body is sorted by. Validation leaves no body field without a type. -/
def Field.size (field : Field) : Nat := ((types field.type).map (·.size)).getD 0

/-- The header as declared, then the body, widest first and otherwise as declared. -/
def layout (schema : Schema) (record : Record) : List Field :=
  schema.header ++ record.fields.mergeSort (fun left right => right.size ≤ left.size)

/-- `types[field["type"]]`. -/
def Field.wireType (field : Field) : Except Fault WireType := orMissing (types field.type)

/-- The body of the loop of `offsets`, over `out` and `cursor`. -/
def placeField (state : Dict String Nat × Nat) (field : Field) :
    Except Fault (Dict String Nat × Nat) := do
  let wireType ← field.wireType
  .ok (state.1.set field.name state.2, state.2 + wireType.size)

def offsets (fields : List Field) : Except Fault (Dict String Nat × Nat) :=
  fields.foldlM placeField (.empty, 0)

def structFormat (fields : List Field) : Except Fault (List Char) := do
  let codes ← fields.mapM fun field => do
    let wireType ← field.wireType
    .ok wireType.code
  .ok ('<' :: codes)

end QuantArena.Contracts.Generate
