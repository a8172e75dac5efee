import EnvelopeLog.Json.Lexeme

/-!
# Skipping values

A value that no field asks for is skipped: its form is checked, but its texts may hold halves of characters and its numbers
may have any size. Nesting is unlimited, because the open brackets are kept in a list.
-/

namespace EnvelopeLog.Json

/-- Skips what follows a backslash. -/
def skipEscape : List Char → Except Failure (List Char)
  | [] => .error { problem := .endInText, rest := [] }
  | c :: rest =>
    if c = 'u' then
      match readHex rest with
      | .error e => .error e
      | .ok (_, rest) => .ok rest
    else if (escaped? c).isSome then .ok rest
    else .error { problem := .invalidEscape, rest := c :: rest }

theorem skipEscape_length {text rest : List Char} (h : skipEscape text = .ok rest) : rest.length < text.length := by
  cases text with
  | nil => simp [skipEscape] at h
  | cons d text =>
    simp only [skipEscape] at h
    split at h
    · split at h
      · simp at h
      · rename_i hn
        have := readHex_length hn
        simp at h
        subst h
        simp
        omega
    · split at h <;> simp at h
      subst h
      simp

/-- Skips a text after its opening quote. -/
def skipText : List Char → Except Failure (List Char)
  | [] => .error { problem := .endInText, rest := [] }
  | c :: rest =>
    if c = '"' then .ok rest
    else if c = '\\' then
      match _h : skipEscape rest with
      | .error e => .error e
      | .ok rest => skipText rest
    else if c < ' ' then .error { problem := .controlCharacter, rest := c :: rest, ahead := 0 }
    else skipText rest
termination_by text => text.length
decreasing_by
  · have := skipEscape_length _h
    simp at *
    omega
  · simp

/-- Skips digits, at least one. -/
def skipDigits (text : List Char) : Except Failure (List Char) :=
  match text with
  | [] => .error { problem := .invalidNumber, rest := [] }
  | c :: rest => if c.isDigit then .ok (rest.dropWhile Char.isDigit) else .error { problem := .invalidNumber, rest := text }

/-- Skips an exponent after its letter. -/
def skipExponent (text : List Char) : Except Failure (List Char) := skipDigits (splitSign text).2

/-- Skips what may follow the whole part of a number. -/
def skipDecimals (text : List Char) : Except Failure (List Char) :=
  match text with
  | '.' :: rest =>
    match skipDigits rest with
    | .error e => .error e
    | .ok after =>
      match after with
      | 'e' :: rest | 'E' :: rest => skipExponent rest
      | _ => .ok after
  | 'e' :: rest | 'E' :: rest => skipExponent rest
  | _ => .ok text

/-- Skips a number after its sign. -/
def skipNumber (text : List Char) : Except Failure (List Char) :=
  match text with
  | [] => .error { problem := .invalidNumber, rest := [] }
  | c :: rest =>
    if !c.isDigit then .error { problem := .invalidNumber, rest := text }
    else if c = '0' then
      if (rest.headD ' ').isDigit then .error { problem := .invalidNumber, rest } else skipDecimals rest
    else skipDecimals (rest.dropWhile Char.isDigit)

/-- Skips a value that is neither a list nor an object. -/
def skipScalar (text : List Char) : Except Failure (List Char) :=
  match text with
  | [] => .error { problem := .endInValue, rest := [] }
  | c :: rest =>
    if c = 'n' then readWord ['u', 'l', 'l'] rest
    else if c = 't' then readWord ['r', 'u', 'e'] rest
    else if c = 'f' then readWord ['a', 'l', 's', 'e'] rest
    else if c = '-' then skipNumber rest
    else if c.isDigit then skipNumber text
    else if c = '"' then skipText rest
    else .error { problem := .expectedValue, rest := text }

/-- A bracket that is still open. -/
inductive Bracket where
  | list
  | object
deriving DecidableEq, Repr

/-- The character that closes a bracket. -/
def Bracket.closing : Bracket → Char
  | .list => ']'
  | .object => '\x7d'

/-- The problem of a text that ends in a bracket. -/
def Bracket.ended : Bracket → Problem
  | .list => .endInList
  | .object => .endInObject

/-- The problem of a value in a bracket after which neither another nor the end comes. -/
def Bracket.expectedComma : Bracket → Problem
  | .list => .expectedCommaInList
  | .object => .expectedCommaInObject

/-- Reads the colon between a key and its value. -/
def readColon (text : List Char) : Except Failure (List Char) :=
  match skipBlanks text with
  | [] => .error { problem := .endInObject, rest := [] }
  | c :: rest => if c = ':' then .ok rest else .error { problem := .expectedColon, rest := c :: rest }

/-- Skips what comes before a value in a bracket: in an object a key and a colon, in a list nothing. -/
def skipKey (bracket : Bracket) (text : List Char) : Except Failure (List Char) :=
  match bracket with
  | .list => .ok text
  | .object =>
    match skipBlanks text with
    | [] => .error { problem := .endInObject, rest := [] }
    | c :: rest =>
      if c = '"' then
        match skipText rest with
        | .error e => .error e
        | .ok rest => readColon rest
      else .error { problem := .keyNotText, rest := c :: rest }

/-! ## Skipping makes progress -/

theorem skipBlanks_length (text : List Char) : (skipBlanks text).length ≤ text.length :=
  (List.dropWhile_suffix _).length_le

theorem readWord_length {word text rest : List Char} (h : readWord word text = .ok rest) : rest.length ≤ text.length := by
  induction word generalizing text with
  | nil =>
    simp [readWord] at h
    simp [h]
  | cons w word ih =>
    cases text with
    | nil => simp [readWord] at h
    | cons c text =>
      simp only [readWord] at h
      split at h
      · have := ih h
        simp
        omega
      · simp at h

theorem skipText_length {text rest : List Char} (h : skipText text = .ok rest) : rest.length < text.length := by
  fun_induction skipText text with
  | case1 => simp at h
  | case2 r =>
    simp at h
    simp [h]
  | case3 => simp at h
  | case4 r s hs _ ih =>
    have := skipEscape_length hs
    have := ih h
    simp
    omega
  | case5 => simp at h
  | case6 c r _ _ _ ih =>
    have := ih h
    simp
    omega

theorem skipDigits_length {text rest : List Char} (h : skipDigits text = .ok rest) : rest.length < text.length := by
  unfold skipDigits at h
  split at h
  · simp at h
  · rename_i r
    have := (List.dropWhile_suffix (l := r) Char.isDigit).length_le
    split at h <;> simp at h
    simp [← h]
    omega

theorem skipExponent_length {text rest : List Char} (h : skipExponent text = .ok rest) : rest.length < text.length :=
  Nat.lt_of_lt_of_le (skipDigits_length h) (splitSign_length text)

theorem skipDecimals_length {text rest : List Char} (h : skipDecimals text = .ok rest) : rest.length ≤ text.length := by
  unfold skipDecimals at h
  split at h
  · split at h
    · simp at h
    · rename_i hd
      have := skipDigits_length hd
      split at h
      · have := skipExponent_length h
        simp at *
        omega
      · have := skipExponent_length h
        simp at *
        omega
      · simp at h
        simp [← h]
        omega
  · have := skipExponent_length h
    simp
    omega
  · have := skipExponent_length h
    simp
    omega
  · simp at h
    simp [h]

theorem skipNumber_length {text rest : List Char} (h : skipNumber text = .ok rest) : rest.length < text.length := by
  cases text with
  | nil => simp [skipNumber] at h
  | cons c text =>
    simp only [skipNumber] at h
    split at h
    · simp at h
    · split at h
      · split at h
        · simp at h
        · have := skipDecimals_length h
          simp
          omega
      · have := skipDecimals_length h
        have := (List.dropWhile_suffix (l := text) Char.isDigit).length_le
        simp
        omega

theorem skipScalar_length {text rest : List Char} (h : skipScalar text = .ok rest) : rest.length < text.length := by
  cases text with
  | nil => simp [skipScalar] at h
  | cons c text =>
    simp only [skipScalar] at h
    repeat' split at h
    · have := readWord_length h
      simp
      omega
    · have := readWord_length h
      simp
      omega
    · have := readWord_length h
      simp
      omega
    · have := skipNumber_length h
      simp
      omega
    · exact skipNumber_length h
    · have := skipText_length h
      simp
      omega
    · simp at h

theorem readColon_length {text rest : List Char} (h : readColon text = .ok rest) : rest.length < text.length := by
  have := skipBlanks_length text
  unfold readColon at h
  split at h
  · simp at h
  · rename_i heq
    rw [heq] at this
    split at h <;> simp at h
    simp [← h] at *
    omega

theorem skipKey_length {bracket : Bracket} {text rest : List Char} (h : skipKey bracket text = .ok rest) :
    rest.length ≤ text.length := by
  unfold skipKey at h
  split at h
  · simp at h
    simp [h]
  · have := skipBlanks_length text
    split at h
    · simp at h
    · rename_i heq
      rw [heq] at this
      split at h
      · split at h
        · simp at h
        · rename_i hs
          have := skipText_length hs
          have := readColon_length h
          simp at *
          omega
      · simp at h

/-- Skips the rest of the values in the open brackets, the innermost first. Either a value comes next, or what may follow
one: a comma and another value, or the closing bracket. -/
def skip (brackets : List Bracket) (valueNext : Bool) (text : List Char) : Except Failure (List Char) :=
  if valueNext then
    match _hb : skipBlanks text with
    | [] => .error { problem := .endInValue, rest := [] }
    | c :: rest =>
      let opened : Option Bracket := if c = '[' then some .list else if c = '\x7b' then some .object else none
      match opened with
      | some bracket =>
        match _hr : skipBlanks rest with
        | [] => .error { problem := bracket.ended, rest := [] }
        | d :: inner =>
          if d = bracket.closing then skip brackets false inner
          else
            match _hk : skipKey bracket (d :: inner) with
            | .error e => .error e
            | .ok value => skip (bracket :: brackets) true value
      | none =>
        match _hs : skipScalar (c :: rest) with
        | .error e => .error e
        | .ok after => skip brackets false after
  else
    match brackets with
    | [] => .ok text
    | bracket :: outer =>
      match _hb : skipBlanks text with
      | [] => .error { problem := bracket.ended, rest := [] }
      | c :: rest =>
        if c = ',' then
          match _hk : skipKey bracket rest with
          | .error e => .error e
          | .ok value => skip brackets true value
        else if c = bracket.closing then skip outer false rest
        else .error { problem := bracket.expectedComma, rest := c :: rest }
termination_by text.length
decreasing_by
  all_goals
    have hblank := skipBlanks_length text
    rw [_hb] at hblank
    simp at hblank
  · have := skipBlanks_length rest
    rw [_hr] at this
    simp at this
    omega
  · have := skipBlanks_length rest
    have := skipKey_length _hk
    rw [_hr] at *
    simp at *
    omega
  · have := skipScalar_length _hs
    simp at *
    omega
  · have := skipKey_length _hk
    omega
  · omega

theorem skip_length {brackets : List Bracket} {valueNext : Bool} {text rest : List Char}
    (h : skip brackets valueNext text = .ok rest) : rest.length ≤ text.length := by
  fun_induction skip brackets valueNext text with
  | case3 _ text c r hb _ bracket _ inner hr ih =>
    have := ih h
    have := skipBlanks_length text
    have := skipBlanks_length r
    simp [hb, hr] at *
    omega
  | case5 _ text c r hb _ bracket _ d inner hr _ value hk ih =>
    have := ih h
    have := skipBlanks_length text
    have := skipBlanks_length r
    have := skipKey_length hk
    simp [hb, hr] at *
    omega
  | case7 _ text c r hb _ _ after hs ih =>
    have := ih h
    have := skipBlanks_length text
    have := skipScalar_length hs
    simp [hb] at *
    omega
  | case8 =>
    simp at h
    simp [h]
  | case11 _ text _ bracket outer r value hk hb ih =>
    have := ih h
    have := skipBlanks_length text
    have := skipKey_length hk
    simp [hb] at *
    omega
  | case12 _ text _ bracket outer r hb _ ih =>
    have := ih h
    have := skipBlanks_length text
    simp [hb] at *
    omega
  | _ => simp at h

/-- Skips a value. -/
def skipValue (text : List Char) : Except Failure (List Char) := skip [] true text

end EnvelopeLog.Json
