import EnvelopeLog.Json.Skip

/-!
# Records

A record is an object read against a schema of named fields, or a list of their values in the order of the schema. Members
with other names are skipped, and no field may occur twice. A text that is a record has nothing but blanks around it.
-/

namespace EnvelopeLog.Json

/-- What a field holds. -/
inductive Kind where
  | text
  /-- A text or `null`. -/
  | optionalText
  /-- A natural number up to a bound, with the name of its range. -/
  | natural (range : String) (bound : Nat)
deriving DecidableEq, Repr

/-- The value of a field. -/
inductive Datum where
  | null
  | text (value : String)
  | natural (value : Nat)
deriving DecidableEq, Repr

/-- A field of a schema. -/
structure Field where
  name : String
  kind : Kind
  mandatory : Bool := false
deriving DecidableEq, Repr

/-- The fields that a record may have, with the name of the whole. -/
structure Schema where
  name : String
  fields : List Field
deriving DecidableEq, Repr

/-- The values of the fields that a record has. -/
abbrev Members := List (String × Datum)

/-! ## Values of fields -/

/-- The failure of reading a value of another kind than expected. The value is read as far as the failure shows it. -/
def misfit (expected : String) (text : List Char) : Failure :=
  let found (f : Found) (rest : List Char) : Failure := { problem := .wrongType f expected, rest, ahead := 0 }
  let word (w : List Char) (f : Found) (rest : List Char) : Failure :=
    match readWord w rest with
    | .error e => e
    | .ok rest => found f rest
  let number (positive : Bool) (text : List Char) : Failure :=
    match readNumber positive text with
    | .error e => e
    | .ok (.natural n, rest) => found (.integer n) rest
    | .ok (.negative n, rest) => found (.integer (-n)) rest
    | .ok (.fraction x, rest) => found (.fraction (Decimal.ofFloat x)) rest
  match text with
  | [] => { problem := .endInValue, rest := [] }
  | c :: rest =>
    if c = 'n' then word ['u', 'l', 'l'] .null rest
    else if c = 't' then word ['r', 'u', 'e'] (.boolean true) rest
    else if c = 'f' then word ['a', 'l', 's', 'e'] (.boolean false) rest
    else if c = '-' then number false rest
    else if c.isDigit then number true text
    else if c = '"' then
      match readText rest with
      | .error e => e
      | .ok (value, rest) => found (.text (String.ofList value)) rest
    else if c = '[' then found .list text
    else if c = '\x7b' then found .object text
    else { problem := .expectedValue, rest := text }

/-- Reads a text with its quotes. -/
def readTextValue (text : List Char) : Except Failure (Datum × List Char) :=
  match text with
  | '"' :: rest =>
    match readText rest with
    | .error e => .error e
    | .ok (value, rest) => .ok (.text (String.ofList value), rest)
  | _ => .error (misfit "a string" text)

/-- The value of a number that should be a natural number up to a bound. -/
def boundedNatural (range : String) (bound : Nat) (number : Number) (rest : List Char) :
    Except Failure (Datum × List Char) :=
  match number with
  | .natural n =>
    if n ≤ bound then .ok (.natural n, rest)
    else .error { problem := .wrongValue (.integer n) range, rest, ahead := 0 }
  | .negative n => .error { problem := .wrongValue (.integer (-n)) range, rest, ahead := 0 }
  | .fraction x => .error { problem := .wrongType (.fraction (Decimal.ofFloat x)) range, rest, ahead := 0 }

/-- Reads a natural number up to a bound. -/
def readNaturalValue (range : String) (bound : Nat) (text : List Char) : Except Failure (Datum × List Char) :=
  match text with
  | [] => .error { problem := .endInValue, rest := [] }
  | c :: rest =>
    if c = '-' then
      match readNumber false rest with
      | .error e => .error e
      | .ok (number, rest) => boundedNatural range bound number rest
    else if c.isDigit then
      match readNumber true text with
      | .error e => .error e
      | .ok (number, rest) => boundedNatural range bound number rest
    else .error (misfit range text)

/-- Reads the value of a field. -/
def readDatum (kind : Kind) (text : List Char) : Except Failure (Datum × List Char) :=
  let text := skipBlanks text
  match kind with
  | .text => readTextValue text
  | .optionalText =>
    match text with
    | 'n' :: rest =>
      match readWord ['u', 'l', 'l'] rest with
      | .error e => .error e
      | .ok rest => .ok (.null, rest)
    | _ => readTextValue text
  | .natural range bound => readNaturalValue range bound text

/-! ## Reading makes progress -/

theorem boundedNatural_rest {range : String} {bound : Nat} {number : Number} {text rest : List Char} {d : Datum}
    (h : boundedNatural range bound number text = .ok (d, rest)) : rest = text := by
  unfold boundedNatural at h
  split at h
  · split at h <;> simp at h
    exact h.2.symm
  · simp at h
  · simp at h

theorem readTextValue_length {text rest : List Char} {d : Datum} (h : readTextValue text = .ok (d, rest)) :
    rest.length ≤ text.length := by
  unfold readTextValue at h
  split at h
  · split at h
    · simp at h
    · rename_i hr
      have := readText_length hr
      simp at h
      simp [← h.2]
      omega
  · simp at h

theorem readNaturalValue_length {range : String} {bound : Nat} {text rest : List Char} {d : Datum}
    (h : readNaturalValue range bound text = .ok (d, rest)) : rest.length ≤ text.length := by
  unfold readNaturalValue at h
  split at h
  · simp at h
  · split at h
    · split at h
      · simp at h
      · rename_i hn
        have := readNumber_length hn
        rw [boundedNatural_rest h]
        simp
        omega
    · split at h
      · split at h
        · simp at h
        · rename_i hn
          have := readNumber_length hn
          rw [boundedNatural_rest h]
          exact this
      · simp at h

theorem readDatum_length {kind : Kind} {text rest : List Char} {d : Datum} (h : readDatum kind text = .ok (d, rest)) :
    rest.length ≤ text.length := by
  refine Nat.le_trans ?_ (skipBlanks_length text)
  unfold readDatum at h
  dsimp only at h
  split at h
  · exact readTextValue_length h
  · split at h
    · rename_i heq
      split at h
      · simp at h
      · rename_i hw
        have := readWord_length hw
        simp at h
        rw [heq, ← h.2]
        simp
        omega
    · exact readTextValue_length h
  · exact readNaturalValue_length h

/-! ## Members and elements -/

/-- The text behind the end of an object, or before whatever stands in its place. -/
def settle (text : List Char) : List Char :=
  match skipBlanks text with
  | '\x7d' :: rest => rest
  | rest => rest

/-- The end of an object whose members have been read: every mandatory field must be among them. -/
def closeObject (schema : Schema) (members : Members) (rest : List Char) : Except Failure (Members × List Char) :=
  match schema.fields.find? fun f => f.mandatory && (members.lookup f.name).isNone with
  | some f => .error { problem := .missingField f.name, rest, ahead := 0 }
  | none => .ok (members, rest)

/-- Moves to the key of the next member of an object, which follows a comma unless the member is the first. -/
def nextKey (first : Bool) (text : List Char) : Except Failure (List Char) :=
  match text with
  | ',' :: rest =>
    if first then .error { problem := .keyNotText, rest := text }
    else
      match skipBlanks rest with
      | [] => .error { problem := .endInValue, rest := [] }
      | c :: key =>
        if c = '"' then .ok key
        else .error { problem := if c = '\x7d' then .trailingComma else .keyNotText, rest := c :: key }
  | c :: key =>
    if !first then .error { problem := .expectedCommaInObject, rest := text }
    else if c = '"' then .ok key
    else .error { problem := .keyNotText, rest := text }
  | [] => .error { problem := .endInObject, rest := [] }

/-- Reads the value of a member whose key has been read, and adds it to the members if a field has that name. -/
def readMember (schema : Schema) (members : Members) (key : String) (text : List Char) :
    Except Failure (Members × List Char) :=
  match schema.fields.find? fun f => f.name == key with
  | none =>
    match readColon text with
    | .error e => .error e
    | .ok text =>
      match skipValue text with
      | .error e => .error e
      | .ok rest => .ok (members, rest)
  | some field =>
    if (members.lookup key).isSome then .error { problem := .duplicateField key, rest := settle text, ahead := 0 }
    else
      match readColon text with
      | .error e => .error e
      | .ok text =>
        match readDatum field.kind text with
        | .error e => .error e
        | .ok (datum, rest) => .ok (members ++ [(key, datum)], rest)

theorem nextKey_length {first : Bool} {text key : List Char} (h : nextKey first text = .ok key) :
    key.length < text.length := by
  unfold nextKey at h
  split at h
  · rename_i r
    split at h
    · simp at h
    · have := skipBlanks_length r
      split at h
      · simp at h
      · rename_i heq
        split at h <;> simp at h
        simp [heq, ← h] at *
        omega
  · split at h
    · simp at h
    · split at h <;> simp at h
      simp [← h]
  · simp at h

theorem readMember_length {schema : Schema} {members more : Members} {key : String} {text rest : List Char}
    (h : readMember schema members key text = .ok (more, rest)) : rest.length ≤ text.length := by
  unfold readMember at h
  split at h
  · split at h
    · simp at h
    · rename_i hc
      have := readColon_length hc
      split at h
      · simp at h
      · rename_i hs
        have := skip_length hs
        simp at h
        rw [← h.2]
        omega
  · split at h
    · simp at h
    · split at h
      · simp at h
      · rename_i hc
        have := readColon_length hc
        split at h
        · simp at h
        · rename_i hd
          have := readDatum_length hd
          simp at h
          rw [← h.2]
          omega

/-- Reads the members of an object and its end. -/
def readMembers (schema : Schema) (members : Members) (first : Bool) (text : List Char) :
    Except Failure (Members × List Char) :=
  match _hb : skipBlanks text with
  | '\x7d' :: rest => closeObject schema members rest
  | start =>
    match _hk : nextKey first start with
    | .error e => .error e
    | .ok keyText =>
      match _ht : readText keyText with
      | .error e => .error e
      | .ok (key, afterKey) =>
        match _hm : readMember schema members (String.ofList key) afterKey with
        | .error e => .error e
        | .ok (members, rest) => readMembers schema members false rest
termination_by text.length
decreasing_by
  have hb := skipBlanks_length text
  rw [_hb] at hb
  have := nextKey_length _hk
  have := readText_length _ht
  have := readMember_length _hm
  omega

/-- Reads the end of a list all of whose fields have been read. -/
def closeList (text : List Char) : Except Failure (List Char) :=
  match skipBlanks text with
  | [] => .error { problem := .endInList, rest := [] }
  | c :: rest =>
    if c = ']' then .ok rest
    else if c = ',' then
      let after := skipBlanks rest
      .error { problem := if after.headD ' ' = ']' then .trailingComma else .trailingCharacters, rest := after }
    else .error { problem := .trailingCharacters, rest := c :: rest }

/-- Moves to the next element of a list, if there is one; it follows a comma unless it is the first. -/
def nextElement? (first : Bool) (text : List Char) : Except Failure (Option (List Char)) :=
  match skipBlanks text with
  | [] => .error { problem := .endInList, rest := [] }
  | c :: rest =>
    if c = ']' then .ok none
    else if first then .ok (some (c :: rest))
    else if c = ',' then
      match skipBlanks rest with
      | [] => .error { problem := .endInValue, rest := [] }
      | d :: after => if d = ']' then .error { problem := .trailingComma, rest := d :: after } else .ok (some (d :: after))
    else .error { problem := .expectedCommaInList, rest := c :: rest }

/-- Reads the elements of a list as the values of the fields, of which `index` have been read, and the end of the list. -/
def readElements (schema : Schema) (index : Nat) (members : Members) :
    List Field → List Char → Except Failure (Members × List Char)
  | [], text =>
    match closeList text with
    | .error e => .error e
    | .ok rest => .ok (members, rest)
  | field :: fields, text =>
    match nextElement? (index == 0) text with
    | .error e => .error e
    | .ok (some element) =>
      match readDatum field.kind element with
      | .error e => .error e
      | .ok (datum, rest) => readElements schema (index + 1) (members ++ [(field.name, datum)]) fields rest
    | .ok none =>
      match closeList text with
      | .error e => .error e
      | .ok rest =>
        match (field :: fields).findIdx? (·.mandatory) with
        | some i =>
          let elements := s!"struct {schema.name} with {schema.fields.length} elements"
          .error { problem := .tooShort (index + i) elements, rest, ahead := 0 }
        | none => .ok (members, rest)

/-- Reads a record and everything after it. -/
def readRecord (schema : Schema) (text : List Char) : Except Failure Members :=
  let read := match skipBlanks text with
    | '[' :: rest => readElements schema 0 [] schema.fields rest
    | '\x7b' :: rest => readMembers schema [] true rest
    | start => .error (misfit s!"struct {schema.name}" start)
  match read with
  | .error e => .error e
  | .ok (members, rest) =>
    match skipBlanks rest with
    | [] => .ok members
    | rest => .error { problem := .trailingCharacters, rest }

/-- The members of the record that a text is. -/
def parseRecord (schema : Schema) (text : String) : Except Fault Members :=
  match readRecord schema text.toList with
  | .error e => .error (e.place text.toList)
  | .ok members => .ok members

end EnvelopeLog.Json
