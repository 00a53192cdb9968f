import QuantArena.Contracts.Emitted
import QuantArena.Contracts.SchemaProperties

/-! What the generated Python module does when it is run: when a record can be made, packed and read
back. -/

set_option autoImplicit false

namespace QuantArena.Contracts.Generate

open Foundations

/-! ## Formats -/

theorem readFormat_codes {fields : List Field} (typed : ∀ field ∈ fields, field.Typed) :
    readFormat ('<' :: fields.map (·.code)) = .ok (fields.map (·.format)) := by
  rw [readFormat, List.mapM_map]
  refine mapM_eq_map fun field member => ?_
  obtain ⟨type, found⟩ := typed field member
  show formatOf field.code = .ok field.format
  rw [Field.code, Field.format, found]
  cases type <;> rfl

theorem structPlaces_ok {fields : List Field} (typed : ∀ field ∈ fields, field.Typed) :
    structPlaces ('<' :: fields.map (·.code)) = .ok (places 0 (fields.map (·.size))) := by
  rw [structPlaces, readFormat_codes typed, Fault.ok_bind, List.map_map]
  refine congrArg (fun widths => Except.ok (places 0 widths)) (List.map_congr_left fun field _ => ?_)
  exact field.width_format

/-! ## Named tuples -/

theorem length_eraseDups_le (names : List String) : names.eraseDups.length ≤ names.length := by
  induction h : names.length using Nat.strong_induction_on generalizing names with
  | _ size ih =>
      cases names with
      | nil => simp at h ⊢
      | cons name rest =>
          have fewer : (rest.filter fun other => !other == name).length ≤ rest.length :=
            List.length_filter_le _ _
          rw [List.length_cons] at h
          have shorter := ih _ (by omega) (rest.filter fun other => !other == name) rfl
          rw [List.eraseDups_cons, List.length_cons]
          omega

theorem nodup_iff_length_eraseDups {names : List String} :
    names.eraseDups.length = names.length ↔ names.Nodup := by
  induction names with
  | nil => simp
  | cons name rest ih =>
      rw [List.eraseDups_cons, List.length_cons, List.length_cons, List.nodup_cons]
      have shorter := length_eraseDups_le (rest.filter fun other => !other == name)
      have fewer : (rest.filter fun other => !other == name).length ≤ rest.length :=
        List.length_filter_le _ _
      constructor
      · intro same
        have whole : rest.filter (fun other => !other == name) = rest :=
          List.filter_sublist.eq_of_length (by omega)
        rw [whole] at same
        refine ⟨fun member => ?_, ih.mp (by omega)⟩
        simpa using List.filter_eq_self.mp whole name member
      · rintro ⟨absent, distinct⟩
        have whole : rest.filter (fun other => !other == name) = rest := by
          refine List.filter_eq_self.mpr fun other member => ?_
          have apart : other ≠ name := fun same => absent (same ▸ member)
          simpa using apart
        rw [whole, ih.mpr distinct]

theorem eraseDups_of_nodup {names : List String} (distinct : names.Nodup) :
    names.eraseDups = names := by
  induction names with
  | nil => rfl
  | cons name rest ih =>
      obtain ⟨absent, others⟩ := List.nodup_cons.mp distinct
      have whole : rest.filter (fun other => !other == name) = rest := by
        refine List.filter_eq_self.mpr fun other member => ?_
        have apart : other ≠ name := fun same => absent (same ▸ member)
        simpa using apart
      rw [List.eraseDups_cons, whole, ih others]

theorem build_eq_ok {cls : PyClass} {keywords : List (String × Int)} {made : PyRecord} :
    cls.build keywords = .ok made ↔ (∀ keyword ∈ keywords, keyword.1 ∈ cls.fields) ∧
      made.cls = cls ∧ cls.fields.map (fun name => keywords.lookup name) = made.values.map some := by
  unfold PyClass.build
  split
  · rename_i unexpected
    obtain ⟨keyword, given, absent⟩ := unexpected
    constructor
    · rintro ⟨⟩
    · rintro ⟨expected, -⟩
      exact absurd (expected keyword given) absent
  · rename_i expected
    push Not at expected
    cases values : cls.fields.mapM fun name => keywords.lookup name with
    | none =>
        constructor
        · rintro ⟨⟩
        · rintro ⟨-, -, found⟩
          rw [mapM_some_iff.mpr found] at values
          cases values
    | some values =>
        have found := mapM_some_iff.mp values
        obtain ⟨cls', own⟩ := made
        simp only [Except.ok.injEq, PyRecord.mk.injEq, found]
        constructor
        · rintro ⟨rfl, rfl⟩
          exact ⟨expected, rfl, rfl⟩
        · rintro ⟨-, rfl, same⟩
          exact ⟨rfl, List.map_injective_iff.mpr (Option.some_injective _) same⟩

theorem lookup_map {names : List String} (f : String → Int) {name : String} (listed : name ∈ names) :
    (names.map fun name => (name, f name)).lookup name = some (f name) := by
  induction names with
  | nil => cases listed
  | cons first rest ih =>
      rw [List.map_cons, List.lookup_cons]
      by_cases same : name = first
      · simp [same]
      · rw [beq_eq_false_iff_ne.mpr same]
        exact ih ((List.mem_cons.mp listed).resolve_left same)

/-! ## Reading back -/

/-- What the two peeks read of a record whose first two fields have two bytes each. -/
theorem peeks {first second : IntFormat} {formats : List IntFormat} {version kind : Int}
    {values : List Int} {bytes : List UInt8} (firstWide : first.width = 2)
    (secondWide : second.width = 2)
    (packed : packAll (first :: second :: formats) (version :: kind :: values) = .ok bytes) :
    unpackUnsigned16 bytes 0 = .ok (version % 65536) ∧
      unpackUnsigned16 bytes 2 = .ok (kind % 65536) := by
  obtain ⟨-, rfl⟩ := packAll_eq_ok.mp packed
  rw [List.zipWith_cons_cons, List.zipWith_cons_cons, List.flatten_cons, List.flatten_cons,
    firstWide, secondWide]
  have long : ∀ (value : Int) (rest : List UInt8),
      2 ≤ (Bytes.truncated 2 value ++ rest).length := by
    intro value rest
    rw [List.length_append, Bytes.length_truncated]
    omega
  constructor
  · rw [unpackUnsigned16, Nat.zero_add, if_pos (long version _), List.drop_zero, IntFormat.take]
    simp only [Bool.false_eq_true, if_false, Bytes.takeUnsigned_truncated]
    rfl
  · have total : 2 + 2 ≤ (Bytes.truncated 2 version ++ (Bytes.truncated 2 kind ++
        (List.zipWith (fun format value => Bytes.truncated format.width value)
          formats values).flatten)).length := by
      have rest := long kind (List.zipWith (fun format value => Bytes.truncated format.width value)
        formats values).flatten
      rw [List.length_append, Bytes.length_truncated]
      omega
    rw [unpackUnsigned16, if_pos total, List.drop_left' (Bytes.length_truncated 2 version),
      IntFormat.take]
    simp only [Bool.false_eq_true, if_false, Bytes.takeUnsigned_truncated]
    rfl

theorem pack_eq_ok {made : PyRecord} {bytes : List UInt8} : made.pack = .ok bytes ↔
    "pack" ∉ made.cls.annotations ∧
      ∃ formats, readFormat made.cls.format = .ok formats ∧ packAll formats made.values = .ok bytes := by
  unfold PyRecord.pack
  split
  · rename_i hidden
    simp [hidden]
  · rename_i callable
    rw [Fault.bind_eq_ok]
    simp [callable]

theorem unpack_eq_ok {cls : PyClass} {data : List UInt8} {made : PyRecord} :
    cls.unpack data = .ok made ↔ "unpack" ∉ cls.annotations ∧
      ∃ formats, readFormat cls.format = .ok formats ∧
        data.length = (formats.map (·.width)).sum ∧ formats.length = cls.fields.length ∧
        made = ⟨cls, takeAll formats data⟩ := by
  unfold PyClass.unpack
  split
  · rename_i hidden
    simp [hidden]
  · rename_i callable
    rw [Fault.bind_eq_ok]
    constructor
    · rintro ⟨formats, read, done⟩
      split at done
      · cases done
      · rename_i whole
        split at done
        · cases done
        · rename_i each
          exact ⟨callable, formats, read, not_not.mp whole, not_not.mp each,
            (Except.ok.inj done).symm⟩
    · rintro ⟨-, formats, read, whole, each, rfl⟩
      exact ⟨formats, read, by rw [if_neg (not_not.mpr whole), if_neg (not_not.mpr each)]⟩

theorem unpackAny_eq_ok {module : PyModule} {data : List UInt8} {made : PyRecord} :
    module.unpackAny data = .ok made ↔ module.peekSchemaVersion data = .ok module.schemaVersion ∧
      ∃ recordType cls, module.peekRecordType data = .ok recordType ∧
        module.recordByType.get? recordType = some cls ∧ cls.unpack data = .ok made := by
  unfold PyModule.unpackAny
  rw [Fault.bind_eq_ok]
  constructor
  · rintro ⟨version, peeked, rest⟩
    split at rest
    · cases rest
    · rename_i same
      rw [not_not.mp same] at peeked
      obtain ⟨recordType, kind, rest⟩ := Fault.bind_eq_ok.mp rest
      cases found : module.recordByType.get? recordType with
      | none =>
          rw [found] at rest
          cases rest
      | some cls =>
          rw [found] at rest
          exact ⟨peeked, recordType, cls, kind, found, rest⟩
  · rintro ⟨version, recordType, cls, kind, found, done⟩
    refine ⟨module.schemaVersion, version, ?_⟩
    rw [if_neg (not_not.mpr rfl), kind, Fault.ok_bind, found]
    exact done

end QuantArena.Contracts.Generate
