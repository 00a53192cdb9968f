import QuantArena.Contracts.Schema
import QuantArena.Foundations.Fold

/-! What validation leaves of a schema, and where the generator places its fields. -/

set_option autoImplicit false

namespace QuantArena.Contracts.Generate

open Foundations

/-! ## The vocabulary -/

def WireType.format : WireType → IntFormat
  | .u8 => ⟨1, false⟩
  | .u16 => ⟨2, false⟩
  | .i16 => ⟨2, true⟩
  | .u64 => ⟨8, false⟩
  | .i64 => ⟨8, true⟩

theorem WireType.width_format (type : WireType) : type.format.width = type.size := by
  cases type <;> rfl

theorem WireType.size_pos (type : WireType) : 0 < type.size := by
  cases type <;> decide

/-- A field whose type is in the vocabulary. -/
def Field.Typed (field : Field) : Prop := ∃ type, types field.type = some type

/-- How a field is written; of no consequence for one without a type. -/
def Field.format (field : Field) : IntFormat :=
  ((types field.type).map WireType.format).getD ⟨0, false⟩

variable {names : Names} {schema : Schema} {record : Record} {field : Field} {fields : List Field}

theorem Field.width_format (field : Field) : field.format.width = field.size := by
  unfold Field.format Field.size
  cases types field.type with
  | none => rfl
  | some type => exact type.width_format

theorem Field.Typed.size_pos (typed : field.Typed) : 0 < field.size := by
  obtain ⟨type, found⟩ := typed
  rw [Field.size, found]
  exact type.size_pos

/-! ## What is accepted -/

theorem forM_eq_ok {α : Type} {check : α → Except Fault Unit} {items : List α} :
    items.forM check = .ok () ↔ ∀ item ∈ items, check item = .ok () := by
  induction items with
  | nil => simp [pure, Except.pure]
  | cons item rest ih =>
      have unrolled : (item :: rest).forM check = (check item >>= fun _ => rest.forM check) := rfl
      rw [unrolled, Fault.bind_eq_ok, List.forall_mem_cons]
      constructor
      · rintro ⟨⟨⟩, first, later⟩
        exact ⟨first, ih.mp later⟩
      · rintro ⟨first, later⟩
        exact ⟨(), first, ih.mpr later⟩

/-- A field with a type, and with an enumeration of that type if it names one. -/
structure Sound (schema : Schema) (field : Field) : Prop where
  typed : field.Typed
  enum : ∀ named, field.enum = some named →
    ∃ enum ∈ schema.enums, enum.name = named ∧ enum.underlying = field.type

theorem checkField_ok {place : String}
    (checked : checkField names schema.enumsByName place field = .ok ()) : Sound schema field := by
  unfold checkField at checked
  split at checked
  · cases checked
  · rename_i typed
    have typed : field.Typed := Option.ne_none_iff_exists'.mp (by simpa using typed)
    split at checked
    · cases checked
    · cases named : field.enum with
      | none => exact ⟨typed, fun other same => by rw [named] at same; cases same⟩
      | some enumName =>
          rw [named] at checked
          simp only at checked
          cases found : schema.enumsByName.get? enumName with
          | none =>
              rw [found] at checked
              cases checked
          | some enum =>
              rw [found] at checked
              simp only at checked
              split at checked
              · cases checked
              · rename_i same
                refine ⟨typed, fun other isOther => ?_⟩
                obtain rfl := Option.some.inj (named.symm.trans isOther)
                cases Dict.mem_of_get?_foldl_set found with
                | inr none => cases none
                | inl member =>
                    obtain ⟨declared, present, equal⟩ := List.mem_map.mp member
                    cases equal
                    exact ⟨_, present, rfl, not_not.mp same⟩

/-- What validation leaves. -/
structure Accepted (schema : Schema) : Prop where
  synthesised : ∀ enum ∈ schema.enums, enum.name ≠ "RecordType"
  underlying : ∀ enum ∈ schema.enums, ∃ type, types enum.underlying = some type
  versioned : "schema_version" ∈ schema.headerNames
  distinct : (schema.records.map (·.recordType)).Nodup
  body : ∀ record ∈ schema.records, ∀ field ∈ record.fields,
    field.name ∉ schema.headerNames ∧ Sound schema field
  header : ∀ field ∈ schema.header, field.enum ≠ some "RecordType" → Sound schema field

theorem checkRecords_ok {headerNames seenNames : List String} {seenTypes : Dict Int String}
    {records : List Record}
    (checked : checkRecords names schema.enumsByName headerNames seenTypes seenNames records = .ok ()) :
    (records.map (·.recordType)).Nodup ∧
      (∀ record ∈ records, seenTypes.get? record.recordType = none) ∧
      ∀ record ∈ records, ∀ field ∈ record.fields, field.name ∉ headerNames ∧ Sound schema field := by
  induction records generalizing seenTypes seenNames with
  | nil => simp
  | cons record rest ih =>
      unfold checkRecords at checked
      split at checked
      · cases checked
      · cases seen : seenTypes.get? record.recordType with
        | some other =>
            rw [seen] at checked
            cases checked
        | none =>
            rw [seen] at checked
            obtain ⟨⟨⟩, body, later⟩ := Fault.bind_eq_ok.mp checked
            obtain ⟨distinct, unseen, others⟩ := ih later
            have apart : ∀ other ∈ rest, other.recordType ≠ record.recordType := by
              intro other member same
              have missing := unseen other member
              rw [same, Dict.get?_set, if_pos rfl] at missing
              cases missing
            refine ⟨?_, ?_, ?_⟩
            · refine List.nodup_cons.mpr ⟨fun member => ?_, distinct⟩
              obtain ⟨other, present, same⟩ := List.mem_map.mp member
              exact apart other present same
            · intro other member
              cases List.mem_cons.mp member with
              | inl same => exact same ▸ seen
              | inr present =>
                  have missing := unseen other present
                  rwa [Dict.get?_set, if_neg (apart other present)] at missing
            · intro other member
              cases List.mem_cons.mp member with
              | inr present => exact others other present
              | inl same =>
                  subst same
                  intro field isField
                  have fine := forM_eq_ok.mp body field isField
                  unfold checkBodyField at fine
                  split at fine
                  · cases fine
                  · rename_i apart
                    exact ⟨apart, checkField_ok fine⟩

/-- A key that is bound stays bound. -/
theorem get?_foldl_set_ne_none {κ ν : Type} [DecidableEq κ] {entries : List (κ × ν)} {key : κ}
    {dict : Dict κ ν} (bound : dict.get? key ≠ none ∨ key ∈ entries.map Prod.fst) :
    (entries.foldl (fun dict entry => dict.set entry.1 entry.2) dict).get? key ≠ none := by
  induction entries generalizing dict with
  | nil => exact bound.resolve_right (by simp)
  | cons entry rest ih =>
      refine ih ?_
      by_cases here : key = entry.1
      · left
        rw [Dict.get?_set, if_pos here]
        exact Option.some_ne_none _
      · rw [Dict.get?_set, if_neg here]
        exact bound.imp_right fun member => (List.mem_cons.mp member).resolve_left here

theorem validate_ok (valid : validate names schema = .ok ()) : Accepted schema := by
  unfold validate at valid
  simp only at valid
  split at valid
  · obtain ⟨_, raised, -⟩ := Fault.bind_eq_ok.mp valid
    cases raised
  · rename_i undeclared
    obtain ⟨⟨⟩, enums, valid⟩ := Fault.bind_eq_ok.mp valid
    split at valid
    · obtain ⟨_, raised, -⟩ := Fault.bind_eq_ok.mp valid
      cases raised
    · rename_i versioned
      obtain ⟨⟨⟩, records, header⟩ := Fault.bind_eq_ok.mp valid
      obtain ⟨distinct, -, body⟩ := checkRecords_ok records
      refine ⟨fun enum member named => ?_, fun enum member => ?_, not_not.mp versioned, distinct,
        body, fun field member other => ?_⟩
      · have bound : schema.enumsByName.get? "RecordType" ≠ none := by
          refine get?_foldl_set_ne_none (.inr ?_)
          rw [List.map_map]
          exact List.mem_map.mpr ⟨enum, member, named⟩
        have absent := Dict.contains_eq_false_iff.mp (Bool.eq_false_iff.mpr undeclared)
        exact bound absent
      · have fine := forM_eq_ok.mp enums enum member
        unfold checkEnum at fine
        split at fine
        · cases fine
        · rename_i typed
          exact Option.ne_none_iff_exists'.mp (by simpa using typed)
      · have listed : field ∈ schema.header.filter (·.enum ≠ some "RecordType") :=
          List.mem_filter.mpr ⟨member, by simpa using other⟩
        exact checkField_ok (forM_eq_ok.mp header field listed)

/-! ## Places -/

theorem layout_perm (schema : Schema) (record : Record) :
    (layout schema record).Perm (schema.header ++ record.fields) :=
  (List.mergeSort_perm record.fields _).append_left schema.header

theorem mem_layout : field ∈ layout schema record ↔ field ∈ schema.header ∨ field ∈ record.fields := by
  rw [(layout_perm schema record).mem_iff, List.mem_append]

/-- `OFFSETS`: each name with the place where its field begins. -/
def placed (start : Nat) (fields : List Field) : List (String × Nat) :=
  (fields.map (·.name)).zip (places start (fields.map (·.size)))

theorem placed_cons (start : Nat) (field : Field) (rest : List Field) :
    placed start (field :: rest) = (field.name, start) :: placed (start + field.size) rest := rfl

theorem keys_placed (start : Nat) (fields : List Field) :
    (placed start fields).map Prod.fst = fields.map (·.name) := by
  refine List.map_fst_zip ?_
  rw [length_places, List.length_map, List.length_map]
  exact Nat.le_succ _

theorem Field.Typed.wireType (typed : field.Typed) :
    ∃ type, field.wireType = .ok type ∧ type.size = field.size ∧ type.format = field.format ∧
      types field.type = some type := by
  obtain ⟨type, found⟩ := typed
  refine ⟨type, ?_, ?_, ?_, found⟩
  · rw [Field.wireType, found]
    rfl
  · rw [Field.size, found]
    rfl
  · rw [Field.format, found]
    rfl

theorem typed_of_wireType {type : WireType} (found : field.wireType = .ok type) : field.Typed := by
  cases known : types field.type with
  | none =>
      rw [Field.wireType, known] at found
      cases found
  | some type => exact ⟨type, known⟩

theorem offsets_ok (typed : ∀ field ∈ fields, field.Typed) :
    offsets fields = .ok (.ofEntries (placed 0 fields), (fields.map (·.size)).sum) := by
  have loop : ∀ (out : Dict String Nat) (cursor : Nat),
      fields.foldlM placeField (out, cursor) =
        .ok ((placed cursor fields).foldl (fun dict entry => dict.set entry.1 entry.2) out,
          cursor + (fields.map (·.size)).sum) := by
    induction fields with
    | nil => exact fun out cursor => rfl
    | cons field rest ih =>
        intro out cursor
        obtain ⟨type, found, size, -⟩ := (typed field List.mem_cons_self).wireType
        rw [List.foldlM_cons, placeField, found, Fault.ok_bind, Fault.ok_bind,
          ih fun other member => typed other (List.mem_cons_of_mem _ member), size, placed_cons,
          List.foldl_cons, List.map_cons, List.sum_cons, Nat.add_assoc]
  have whole := loop .empty 0
  rw [Nat.zero_add] at whole
  exact whole

theorem typed_of_offsets {result : Dict String Nat × Nat} (returned : offsets fields = .ok result) :
    ∀ field ∈ fields, field.Typed := by
  unfold offsets at returned
  generalize (Dict.empty, 0) = start at returned
  induction fields generalizing start with
  | nil => simp
  | cons field rest ih =>
      rw [List.foldlM_cons] at returned
      obtain ⟨next, first, later⟩ := Fault.bind_eq_ok.mp returned
      obtain ⟨type, found, -⟩ := Fault.bind_eq_ok.mp first
      intro other member
      cases List.mem_cons.mp member with
      | inl same => exact same ▸ typed_of_wireType found
      | inr present => exact ih next later other present

/-- The place of a field, where no other has its name. -/
theorem get?_placed (distinct : (fields.map (·.name)).Nodup) {index : Nat}
    (found : fields[index]? = some field) :
    (Dict.ofEntries (placed 0 fields)).get? field.name =
      (places 0 (fields.map (·.size)))[index]? := by
  have within : index < fields.length := (List.getElem?_eq_some_iff.mp found).1
  have place := @places_getElem? 0 (fields.map (·.size)) index (by simpa using within.le)
  rw [place, Dict.get?_ofEntries (by rw [keys_placed]; exact distinct)]
  refine List.mem_of_getElem? (i := index) ?_
  rw [placed, List.getElem?_zip_eq_some]
  exact ⟨by rw [List.getElem?_map, found]; rfl, place⟩

/-! ## Formats -/

/-- The code of a field, in a format string. -/
def Field.code (field : Field) : Char := ((types field.type).map (·.code)).getD ' '

theorem structFormat_ok (typed : ∀ field ∈ fields, field.Typed) :
    structFormat fields = .ok ('<' :: fields.map (·.code)) := by
  have codes : fields.mapM (fun field => do
      let wireType ← field.wireType
      .ok wireType.code) = (.ok (fields.map (·.code)) : Except Fault (List Char)) := by
    refine mapM_eq_map fun field member => ?_
    obtain ⟨type, found, -, -, known⟩ := (typed field member).wireType
    rw [found, Fault.ok_bind, Field.code, known]
    rfl
  rw [structFormat, codes]
  rfl

end QuantArena.Contracts.Generate
