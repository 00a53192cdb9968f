import Mathlib.Data.List.TakeWhile
import QuantArena.Foundations.Stream

/-! Compact JSON text of integers, plain strings, arrays and objects: writing it,
reading it, and that what was written is read back. -/

set_option autoImplicit false

namespace QuantArena.Foundations

/-- A printable ASCII character that a JSON string shows as it is. -/
def Plain (char : Char) : Prop :=
  32 ≤ char.toNat ∧ char.toNat < 127 ∧ char.toNat ≠ 34 ∧ char.toNat ≠ 92

instance : DecidablePred Plain := fun _ => inferInstanceAs (Decidable (_ ∧ _ ∧ _ ∧ _))

structure Text where
  chars : List Char
  plain : ∀ char ∈ chars, Plain char
deriving DecidableEq

instance (chars : List Char) : Decidable (∀ char ∈ chars, Plain char) := List.decidableBAll _ _

/-- Closes the field of a text that is written out. -/
theorem plain_of_all {chars : List Char} (all : chars.all (fun char => decide (Plain char)) = true) :
    ∀ char ∈ chars, Plain char := by
  simpa using all

inductive Json where
  | int (value : Int)
  | str (text : Text)
  | arr (items : List Json)
  | obj (fields : List (Text × Json))

namespace Json

/-! ## Writing -/

def quote : Char := Char.ofNat 34

def writeInt : Int → List Char
  | .ofNat value => Nat.toDigits 10 value
  | .negSucc value => '-' :: Nat.toDigits 10 (value + 1)

def writeText (text : Text) : List Char := quote :: (text.chars ++ [quote])

mutual

/-- `json.dumps` with the separators of the services. -/
def dumps : Json → List Char
  | .int value => writeInt value
  | .str text => writeText text
  | .arr items => '[' :: (dumpItems items ++ [']'])
  | .obj fields => '{' :: (dumpFields fields ++ ['}'])

def dumpItems : List Json → List Char
  | [] => []
  | [item] => item.dumps
  | item :: next :: rest => item.dumps ++ ',' :: dumpItems (next :: rest)

def dumpFields : List (Text × Json) → List Char
  | [] => []
  | [(name, value)] => writeText name ++ ':' :: value.dumps
  | (name, value) :: next :: rest =>
      writeText name ++ ':' :: (value.dumps ++ ',' :: dumpFields (next :: rest))

end

/-! ## Reading -/

def readDigits (chars : List Char) : Option (Nat × List Char) :=
  let digits := chars.takeWhile Char.isDigit
  if digits = [] then none
  else some (Nat.ofDigitChars 10 digits 0, chars.dropWhile Char.isDigit)

def readInt : List Char → Option (Int × List Char)
  | '-' :: chars => (readDigits chars).map fun read => (-(read.1 : Int), read.2)
  | chars => (readDigits chars).map fun read => ((read.1 : Int), read.2)

/-- The rest of a string, past its opening quote. -/
def readText (chars : List Char) : Option (Text × List Char) :=
  match chars.dropWhile (· ≠ quote) with
  | [] => none
  | _ :: rest =>
      if plain : ∀ char ∈ chars.takeWhile (· ≠ quote), Plain char then
        some (⟨chars.takeWhile (· ≠ quote), plain⟩, rest)
      else none

mutual

/-- The fuel bounds the nesting and the length of what is read. -/
def readValue : Nat → List Char → Option (Json × List Char)
  | 0, _ => none
  | _, [] => none
  | fuel + 1, char :: rest =>
      if char = quote then (readText rest).map fun read => (.str read.1, read.2)
      else if char = '[' then
        if rest.head? = some ']' then some (.arr [], rest.tail)
        else (readItems fuel rest).map fun read => (.arr read.1, read.2)
      else if char = '{' then
        if rest.head? = some '}' then some (.obj [], rest.tail)
        else (readFields fuel rest).map fun read => (.obj read.1, read.2)
      else (readInt (char :: rest)).map fun read => (.int read.1, read.2)

def readItems : Nat → List Char → Option (List Json × List Char)
  | 0, _ => none
  | fuel + 1, chars =>
      match readValue fuel chars with
      | some (item, ',' :: rest) =>
          (readItems fuel rest).map fun read => (item :: read.1, read.2)
      | some (item, ']' :: rest) => some ([item], rest)
      | _ => none

def readFields : Nat → List Char → Option (List (Text × Json) × List Char)
  | 0, _ => none
  | _, [] => none
  | fuel + 1, char :: chars =>
      if char ≠ quote then none
      else
        match readText chars with
        | some (name, ':' :: rest) =>
            match readValue fuel rest with
            | some (value, ',' :: rest) =>
                (readFields fuel rest).map fun read => ((name, value) :: read.1, read.2)
            | some (value, '}' :: rest) => some ([(name, value)], rest)
            | _ => none
        | _ => none

end

/-- `json.loads`, of text that `dumps` may have written. -/
def loads (text : List Char) : Option Json :=
  match readValue (2 * text.length + 1) text with
  | some (value, []) => some value
  | _ => none

/-! ## Reading what was written -/

/-- No digit follows. -/
def Stops : List Char → Prop
  | [] => True
  | char :: _ => char.isDigit = false

theorem readDigits_toDigits (value : Nat) {rest : List Char} (stops : Stops rest) :
    readDigits (Nat.toDigits 10 value ++ rest) = some (value, rest) := by
  have digits : ∀ char ∈ Nat.toDigits 10 value, char.isDigit = true := fun _ member =>
    Nat.isDigit_of_mem_toDigits (by decide) (by decide) member
  have taken : (Nat.toDigits 10 value ++ rest).takeWhile Char.isDigit = Nat.toDigits 10 value := by
    rw [List.takeWhile_append_of_pos digits]
    cases rest with
    | nil => simp
    | cons char _ =>
        have other : char.isDigit = false := stops
        simp [other]
  have left : (Nat.toDigits 10 value ++ rest).dropWhile Char.isDigit = rest := by
    rw [List.dropWhile_append_of_pos digits]
    cases rest with
    | nil => rfl
    | cons char _ =>
        have other : char.isDigit = false := stops
        simp [other]
  simp only [readDigits, taken, left, Nat.toDigits_ne_nil, if_false, Nat.ofDigitChars_ten_toDigits]

theorem readInt_writeInt (value : Int) {rest : List Char} (stops : Stops rest) :
    readInt (writeInt value ++ rest) = some (value, rest) := by
  cases value with
  | ofNat value =>
      cases written : Nat.toDigits 10 value with
      | nil => exact absurd written Nat.toDigits_ne_nil
      | cons char chars =>
          have digit : char.isDigit = true := Nat.isDigit_of_mem_toDigits (b := 10) (n := value)
            (by decide) (by decide) (by simp [written])
          have positive : char ≠ '-' := by
            rintro rfl
            exact absurd digit (by decide)
          have read := readDigits_toDigits value stops
          rw [written] at read
          simp only [writeInt, written, List.cons_append, readInt]
          rw [List.cons_append] at read
          split
          · rename_i same
            exact absurd (List.cons.inj same).1 positive
          · simp [read]
  | negSucc value =>
      have read := readDigits_toDigits (value + 1) stops
      simp [writeInt, readInt, read, Int.negSucc_eq]

theorem readText_writeText (text : Text) (rest : List Char) :
    readText (text.chars ++ quote :: rest) = some (text, rest) := by
  have plain : ∀ char ∈ text.chars, (char ≠ quote : Bool) = true := by
    intro char member
    have visible := (text.plain char member).2.2.1
    simp only [decide_not, Bool.not_eq_eq_eq_not, Bool.not_true, decide_eq_false_iff_not]
    rintro rfl
    exact visible rfl
  have left : (text.chars ++ quote :: rest).dropWhile (· ≠ quote) = quote :: rest := by
    rw [List.dropWhile_append_of_pos plain]
    simp
  have taken : (text.chars ++ quote :: rest).takeWhile (· ≠ quote) = text.chars := by
    rw [List.takeWhile_append_of_pos plain]
    simp
  simp only [readText, left, taken]
  rw [dif_pos text.plain]

/-- How an integer begins: with a digit or a sign, so with nothing that opens another value. -/
theorem writeInt_cons (value : Int) :
    ∃ char rest, writeInt value = char :: rest ∧ (char.isDigit = true ∨ char = '-') := by
  cases value with
  | ofNat value =>
      cases written : Nat.toDigits 10 value with
      | nil => exact absurd written Nat.toDigits_ne_nil
      | cons char rest =>
          exact ⟨char, rest, written, .inl (Nat.isDigit_of_mem_toDigits (b := 10) (n := value)
            (by decide) (by decide) (by simp [written]))⟩
  | negSucc value => exact ⟨'-', _, rfl, .inr rfl⟩

theorem dumps_cons (value : Json) :
    ∃ char rest, value.dumps = char :: rest ∧ char ≠ ']' := by
  cases value with
  | int value =>
      obtain ⟨char, rest, written, first⟩ := writeInt_cons value
      refine ⟨char, rest, by rw [dumps, written], ?_⟩
      rintro rfl
      exact absurd first (by decide)
  | str text => exact ⟨quote, text.chars ++ [quote], by rw [dumps, writeText], by decide⟩
  | arr items => exact ⟨'[', dumpItems items ++ [']'], by rw [dumps], by decide⟩
  | obj fields => exact ⟨'{', dumpFields fields ++ ['}'], by rw [dumps], by decide⟩

theorem dumpItems_cons (item : Json) (items : List Json) :
    ∃ char rest, dumpItems (item :: items) = char :: rest ∧ char ≠ ']' := by
  obtain ⟨char, rest, written, other⟩ := dumps_cons item
  cases items with
  | nil => exact ⟨char, rest, by rw [dumpItems, written], other⟩
  | cons next more => exact ⟨char, _, by rw [dumpItems, written, List.cons_append], other⟩

theorem dumpFields_cons (field : Text × Json) (fields : List (Text × Json)) :
    ∃ rest, dumpFields (field :: fields) = quote :: rest := by
  cases fields with
  | nil => exact ⟨_, by rw [dumpFields, writeText, List.cons_append]⟩
  | cons next more => exact ⟨_, by rw [dumpFields, writeText, List.cons_append]⟩

/-- One value, a run of items up to the bracket, a run of fields up to the brace. The
induction is on the fuel, which every nested read spends one of. -/
theorem read_dumps (fuel : Nat) :
    (∀ value rest, 2 * (dumps value).length < fuel → Stops rest →
      readValue fuel (value.dumps ++ rest) = some (value, rest)) ∧
    (∀ item items rest, 2 * (dumpItems (item :: items)).length + 1 < fuel →
      readItems fuel (dumpItems (item :: items) ++ ']' :: rest) = some (item :: items, rest)) ∧
    ∀ field fields rest, 2 * (dumpFields (field :: fields)).length + 1 < fuel →
      readFields fuel (dumpFields (field :: fields) ++ '}' :: rest) =
        some (field :: fields, rest) := by
  induction fuel with
  | zero => refine ⟨?_, ?_, ?_⟩ <;> intros <;> omega
  | succ fuel ih =>
      obtain ⟨readsValue, readsItems, readsFields⟩ := ih
      refine ⟨?_, ?_, ?_⟩
      · intro value rest enough stops
        cases value with
        | int value =>
            obtain ⟨char, more, written, first⟩ := writeInt_cons value
            have read := readInt_writeInt value stops
            rw [written, List.cons_append] at read
            have notQuote : char ≠ quote := by
              rintro rfl
              exact absurd first (by decide)
            have notArray : char ≠ '[' := by
              rintro rfl
              exact absurd first (by decide)
            have notObject : char ≠ '{' := by
              rintro rfl
              exact absurd first (by decide)
            rw [dumps, written, List.cons_append, readValue, if_neg notQuote, if_neg notArray,
              if_neg notObject, read]
            rfl
        | str text =>
            rw [dumps, writeText, List.cons_append, readValue, if_pos rfl, List.append_assoc,
              List.singleton_append, readText_writeText]
            rfl
        | arr items =>
            rw [dumps, List.cons_append, readValue, if_neg (by decide), if_pos rfl,
              List.append_assoc, List.singleton_append]
            cases items with
            | nil =>
                rw [dumpItems, List.nil_append, List.head?_cons, if_pos rfl]
                rfl
            | cons item items =>
                obtain ⟨char, more, written, other⟩ := dumpItems_cons item items
                have opened : (dumpItems (item :: items) ++ ']' :: rest).head? ≠ some ']' := by
                  rw [written]
                  simpa using other
                rw [if_neg opened, readsItems item items rest (by
                  simp only [dumps, List.length_cons, List.length_append, List.length_nil] at enough
                  omega)]
                rfl
        | obj fields =>
            rw [dumps, List.cons_append, readValue, if_neg (by decide), if_neg (by decide),
              if_pos rfl, List.append_assoc, List.singleton_append]
            cases fields with
            | nil =>
                rw [dumpFields, List.nil_append, List.head?_cons, if_pos rfl]
                rfl
            | cons field fields =>
                obtain ⟨more, written⟩ := dumpFields_cons field fields
                have opened : (dumpFields (field :: fields) ++ '}' :: rest).head? ≠ some '}' := by
                  rw [written]
                  simp [quote]
                rw [if_neg opened, readsFields field fields rest (by
                  simp only [dumps, List.length_cons, List.length_append, List.length_nil] at enough
                  omega)]
                rfl
      · intro item items rest enough
        cases items with
        | nil =>
            rw [dumpItems] at enough ⊢
            have read := readsValue item (']' :: rest) (by omega) rfl
            simp [readItems, read]
        | cons next more =>
            rw [dumpItems, List.length_append, List.length_cons] at enough
            have read := readsValue item (',' :: (dumpItems (next :: more) ++ ']' :: rest))
              (by omega) rfl
            have others := readsItems next more rest (by omega)
            rw [dumpItems, List.append_assoc, List.cons_append]
            simp [readItems, read, others]
      · intro field fields rest enough
        obtain ⟨name, value⟩ := field
        cases fields with
        | nil =>
            simp only [dumpFields, writeText, List.length_append, List.length_cons,
              List.length_nil] at enough
            have read := readsValue value ('}' :: rest) (by omega) rfl
            simp only [dumpFields, writeText, List.cons_append, List.append_assoc]
            simp [readFields, readText_writeText, read]
        | cons next more =>
            simp only [dumpFields, writeText, List.length_append, List.length_cons,
              List.length_nil] at enough
            have read := readsValue value (',' :: (dumpFields (next :: more) ++ '}' :: rest))
              (by omega) rfl
            have others := readsFields next more rest (by omega)
            simp only [dumpFields, writeText, List.cons_append, List.append_assoc]
            simp [readFields, readText_writeText, read, others]

theorem loads_dumps (value : Json) : loads value.dumps = some value := by
  have read := (read_dumps (2 * value.dumps.length + 1)).1 value [] (by omega) trivial
  rw [List.append_nil] at read
  rw [loads, read]

/-! ## Reading a document's parts -/

def toInt? : Json → Option Int
  | .int value => some value
  | _ => none

def toItems? : Json → Option (List Json)
  | .arr items => some items
  | _ => none

/-- The value under a name that a document has once. -/
def field? (document : Json) (name : Text) : Option Json :=
  match document with
  | .obj fields => (fields.find? fun field => field.1 = name).map Prod.snd
  | _ => none

def ofInts (values : List Int) : Json := .arr (values.map .int)

def toInts? (document : Json) : Option (List Int) := document.toItems?.bind (·.mapM toInt?)

/-- A table of integers. -/
def ofRows (rows : List (List Int)) : Json := .arr (rows.map ofInts)

def toRows? (document : Json) : Option (List (List Int)) := document.toItems?.bind (·.mapM toInts?)

/-- Reading each item back from what was made of it. -/
theorem mapM_map {α β γ : Type} (write : α → β) (read : β → Option γ) (back : α → γ)
    {items : List α} (reads : ∀ item ∈ items, read (write item) = some (back item)) :
    (items.map write).mapM read = some (items.map back) := by
  induction items with
  | nil => rfl
  | cons item rest ih =>
      have first := reads item List.mem_cons_self
      have others := ih fun other member => reads other (List.mem_cons_of_mem _ member)
      simp [first, others]

@[simp] theorem toInts?_ofInts (values : List Int) : (ofInts values).toInts? = some values := by
  have read := @mapM_map _ _ _ Json.int toInt? id values fun _ _ => rfl
  simpa [ofInts, toInts?, toItems?] using read

@[simp] theorem toRows?_ofRows (rows : List (List Int)) : (ofRows rows).toRows? = some rows := by
  have read := @mapM_map _ _ _ ofInts toInts? id rows fun row _ => toInts?_ofInts row
  simpa [ofRows, toRows?, toItems?] using read

/-! ## Stream ids as text -/

theorem plain_of_isDigit {char : Char} (digit : char.isDigit = true) : Plain char := by
  simp only [Char.isDigit, Bool.and_eq_true, decide_eq_true_eq] at digit
  have low : 48 ≤ char.toNat := digit.1
  have high : char.toNat ≤ 57 := digit.2
  exact ⟨by omega, by omega, by omega, by omega⟩

theorem plain_toDigits (value : Nat) : ∀ char ∈ Nat.toDigits 10 value, Plain char :=
  fun _ member => plain_of_isDigit (Nat.isDigit_of_mem_toDigits (by decide) (by decide) member)

/-- `milliseconds-ordinal`. -/
def streamIdText (id : StreamId) : Text where
  chars := Nat.toDigits 10 (ofLex id).1 ++ '-' :: Nat.toDigits 10 (ofLex id).2
  plain := by
    intro char member
    rw [List.mem_append, List.mem_cons] at member
    obtain first | rfl | second := member
    · exact plain_toDigits _ char first
    · decide
    · exact plain_toDigits _ char second

def toStreamId? : Json → Option StreamId
  | .str text =>
      match readDigits text.chars with
      | some (milliseconds, '-' :: rest) =>
          match readDigits rest with
          | some (ordinal, []) => some (toLex (milliseconds, ordinal))
          | _ => none
      | _ => none
  | _ => none

@[simp] theorem toStreamId?_streamIdText (id : StreamId) :
    toStreamId? (.str (streamIdText id)) = some id := by
  have first := @readDigits_toDigits (ofLex id).1 ('-' :: Nat.toDigits 10 (ofLex id).2) rfl
  have second := @readDigits_toDigits (ofLex id).2 [] trivial
  rw [List.append_nil] at second
  simp [toStreamId?, streamIdText, first, second]

end Json

end QuantArena.Foundations
