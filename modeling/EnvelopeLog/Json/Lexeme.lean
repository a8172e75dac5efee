import EnvelopeLog.Json.Fault
import EnvelopeLog.Text.Decimal

/-!
# Words, texts and numbers of JSON

Readers of the smallest parts of a JSON text. Each takes the characters left to read and returns what it read with the
characters after it, or the failure it met.
-/

namespace EnvelopeLog.Json

/-- Whether a character may stand between the parts of a text. -/
def isBlank (c : Char) : Bool := c == ' ' || c == '\n' || c == '\t' || c == '\r'

/-- The text from its first character on that is not blank. -/
def skipBlanks (text : List Char) : List Char := text.dropWhile isBlank

/-- Reads the characters of a word. -/
def readWord : List Char → List Char → Except Failure (List Char)
  | [], text => .ok text
  | _ :: _, [] => .error { problem := .endInValue, rest := [] }
  | w :: word, c :: text => if c = w then readWord word text else .error { problem := .expectedWord, rest := c :: text }

/-! ## Texts -/

/-- The value of a hexadecimal digit in either case. -/
def hexDigit? (c : Char) : Option Nat :=
  let n := c.toNat
  if 48 ≤ n ∧ n < 58 then some (n - 48)
  else if 97 ≤ n ∧ n < 103 then some (n - 87)
  else if 65 ≤ n ∧ n < 71 then some (n - 55)
  else none

/-- Reads four hexadecimal digits; a text that ends within four bytes ends too soon. -/
def readHex (text : List Char) : Except Failure (Nat × List Char) :=
  match text with
  | a :: b :: c :: d :: rest =>
    match hexDigit? a, hexDigit? b, hexDigit? c, hexDigit? d with
    | some a, some b, some c, some d => .ok (((a * 16 + b) * 16 + c) * 16 + d, rest)
    | _, _, _, _ => .error { problem := .invalidEscape, rest := text, ahead := 4 }
  | _ =>
    if byteCount text < 4 then .error { problem := .endInText, rest := [] }
    else .error { problem := .invalidEscape, rest := text, ahead := 4 }

/-- Whether a number is the first half of a pair that stands for one character. -/
def isLeading (n : Nat) : Bool := 0xd800 ≤ n && n < 0xdc00

/-- Whether a number is the second half of a pair that stands for one character. -/
def isTrailing (n : Nat) : Bool := 0xdc00 ≤ n && n < 0xe000

/-- Reads the digits of an escape by number. A first half must be followed by the escape of a second half. -/
def readCodePoint (text : List Char) : Except Failure (Char × List Char) :=
  match readHex text with
  | .error e => .error e
  | .ok (n, rest) =>
    if isTrailing n then .error { problem := .loneSurrogate, rest, ahead := 0 }
    else if !isLeading n then .ok (Char.ofNat n, rest)
    else
      match rest with
      | '\\' :: 'u' :: after =>
        match readHex after with
        | .error e => .error e
        | .ok (low, rest) =>
          if isTrailing low then .ok (Char.ofNat ((n - 0xd800) * 0x400 + (low - 0xdc00) + 0x10000), rest)
          else .error { problem := .loneSurrogate, rest, ahead := 0 }
      | [] | ['\\'] => .error { problem := .endInText, rest := [] }
      | '\\' :: after => .error { problem := .halfSurrogate, rest := after }
      | _ => .error { problem := .halfSurrogate, rest }

/-- The character of an escape by letter. -/
def escaped? (c : Char) : Option Char :=
  if c = '"' ∨ c = '\\' ∨ c = '/' then some c
  else if c = 'b' then some '\x08'
  else if c = 'f' then some '\x0c'
  else if c = 'n' then some '\n'
  else if c = 'r' then some '\r'
  else if c = 't' then some '\t'
  else none

/-- Reads what follows a backslash. -/
def readEscape : List Char → Except Failure (Char × List Char)
  | [] => .error { problem := .endInText, rest := [] }
  | c :: rest =>
    if c = 'u' then readCodePoint rest
    else
      match escaped? c with
      | some d => .ok (d, rest)
      | none => .error { problem := .invalidEscape, rest := c :: rest }

theorem readHex_length {text rest : List Char} {n : Nat} (h : readHex text = .ok (n, rest)) :
    rest.length < text.length := by
  unfold readHex at h
  split at h
  · split at h <;> simp at h
    obtain ⟨_, rfl⟩ := h
    simp
    omega
  · split at h <;> simp at h

theorem readCodePoint_length {text rest : List Char} {c : Char} (h : readCodePoint text = .ok (c, rest)) :
    rest.length < text.length := by
  unfold readCodePoint at h
  split at h
  · simp at h
  · rename_i n after hn
    have := readHex_length hn
    split at h
    · simp at h
    · split at h
      · simp at h
        obtain ⟨_, rfl⟩ := h
        exact this
      · split at h
        · split at h
          · simp at h
          · rename_i hlow
            have := readHex_length hlow
            split at h <;> simp at h
            obtain ⟨_, rfl⟩ := h
            simp at *
            omega
        all_goals simp at h

theorem readEscape_length {text rest : List Char} {c : Char} (h : readEscape text = .ok (c, rest)) :
    rest.length < text.length := by
  cases text with
  | nil => simp [readEscape] at h
  | cons d text =>
    simp only [readEscape] at h
    split at h
    · have := readCodePoint_length h
      simp
      omega
    · split at h <;> simp at h
      obtain ⟨_, rfl⟩ := h
      simp

/-- Reads a text after its opening quote. -/
def readText : List Char → Except Failure (List Char × List Char)
  | [] => .error { problem := .endInText, rest := [] }
  | c :: rest =>
    if c = '"' then .ok ([], rest)
    else if c = '\\' then
      match _h : readEscape rest with
      | .error e => .error e
      | .ok (d, rest) =>
        match readText rest with
        | .error e => .error e
        | .ok (cs, rest) => .ok (d :: cs, rest)
    else if c < ' ' then .error { problem := .controlCharacter, rest := c :: rest }
    else
      match readText rest with
      | .error e => .error e
      | .ok (cs, rest) => .ok (c :: cs, rest)
termination_by text => text.length
decreasing_by
  · have := readEscape_length _h
    simp at *
    omega
  · simp

theorem readText_length {text rest cs : List Char} (h : readText text = .ok (cs, rest)) : rest.length < text.length := by
  fun_induction readText text generalizing cs rest with
  | case1 => simp at h
  | case2 r =>
    simp at h
    simp [h]
  | case3 => simp at h
  | case4 => simp at h
  | case5 r d s hs cs' s' hs' _ ih =>
    have := readEscape_length hs
    have := ih hs'
    simp at h
    simp [← h.2]
    omega
  | case6 => simp at h
  | case7 => simp at h
  | case8 c r _ _ _ cs' s' hs' ih =>
    have := ih hs'
    simp at h
    simp [← h.2]
    omega

/-! ## Numbers -/

/-- A number by how it is written. -/
inductive Number where
  /-- Digits that stay below `2 ^ 64`. -/
  | natural (n : Nat)
  /-- A minus sign and digits that stay within `2 ^ 63` and are not all zero. -/
  | negative (n : Nat)
  /-- Any other number, by the double it is read as. -/
  | fraction (x : Float)

/-- The value of a decimal digit. -/
def digit (c : Char) : Nat := c.toNat - 48

/-- The significand after further digits, as long as it stays below `2 ^ 64`, and how many of them it took. -/
def absorb (significand : Nat) : List Char → Nat × Nat
  | [] => (significand, 0)
  | c :: digits =>
    let next := significand * 10 + digit c
    if next < 0x10000000000000000 then
      let (s, taken) := absorb next digits
      (s, taken + 1)
    else (significand, 0)

/-- The double `x * 10 ^ exponent`, unless it is too large. Powers beyond the largest finite one are applied in steps. -/
def scale? (x : Float) (exponent : Int) : Option Float :=
  if exponent.natAbs ≤ 308 then
    let power := Float.ofScientific 1 false exponent.natAbs
    if 0 ≤ exponent then
      let y := x * power
      if y.isInf then none else some y
    else some (x / power)
  else if x == 0.0 then some x
  else if 0 ≤ exponent then none
  else scale? (x / Float.ofScientific 1 false 308) (exponent + 308)
termination_by exponent.natAbs

/-- The number `± significand * 10 ^ exponent` before the rest of the text. -/
def toFraction (positive : Bool) (significand : Nat) (exponent : Int) (rest : List Char) :
    Except Failure (Number × List Char) :=
  match scale? (UInt64.ofNat significand).toFloat exponent with
  | some x => .ok (.fraction (if positive then x else -x), rest)
  | none => .error { problem := .numberOutOfRange, rest, ahead := 0 }

/-- The exponent that digits give from `e` on while it stays below `2 ^ 31`, or what follows the digit that is too many. -/
def absorbExponent (e : Nat) : List Char → Except (List Char) (Nat × List Char)
  | [] => .ok (e, [])
  | c :: text =>
    if c.isDigit then
      if e * 10 + digit c < 0x80000000 then absorbExponent (e * 10 + digit c) text else .error text
    else .ok (e, c :: text)

/-- Takes a sign off a text: whether it is no minus sign, and the text after it. -/
def splitSign (text : List Char) : Bool × List Char :=
  match text with
  | [] => (true, [])
  | c :: rest => if c = '+' then (true, rest) else if c = '-' then (false, rest) else (true, text)

/-- Reads the digits of an exponent that moves the point up or down. -/
def readPower (positive : Bool) (significand : Nat) (start : Int) (up : Bool) (text : List Char) :
    Except Failure (Number × List Char) :=
  match text with
  | [] => .error { problem := .endInValue, rest := [] }
  | c :: rest =>
    if !c.isDigit then .error { problem := .invalidNumber, rest := text }
    else
      match absorbExponent (digit c) rest with
      | .ok (e, rest) =>
        let exponent := if up then start + e else start - e
        toFraction positive significand (max (-0x80000000) (min exponent 0x7fffffff)) rest
      | .error after =>
        if up ∧ significand ≠ 0 then .error { problem := .numberOutOfRange, rest := after, ahead := 0 }
        else .ok (.fraction (if positive then 0.0 else -0.0), after.dropWhile Char.isDigit)

/-- Reads an exponent after its letter. -/
def readExponent (positive : Bool) (significand : Nat) (start : Int) (text : List Char) :
    Except Failure (Number × List Char) :=
  let (up, digits) := splitSign text
  readPower positive significand start up digits

/-- Reads the digits after a decimal point. -/
def readDecimals (positive : Bool) (significand : Nat) (start : Int) (text : List Char) :
    Except Failure (Number × List Char) :=
  let digits := text.takeWhile Char.isDigit
  let rest := text.dropWhile Char.isDigit
  if digits = [] then .error { problem := if rest = [] then .endInValue else .invalidNumber, rest }
  else
    let (significand, taken) := absorb significand digits
    match rest with
    | 'e' :: rest | 'E' :: rest => readExponent positive significand (start - taken) rest
    | _ => toFraction positive significand (start - taken) rest

/-- Reads a number after its sign. -/
def readNumber (positive : Bool) (text : List Char) : Except Failure (Number × List Char) :=
  let digits := text.takeWhile Char.isDigit
  let rest := text.dropWhile Char.isDigit
  match digits with
  | [] => .error { problem := if text = [] then .endInValue else .invalidNumber, rest := text }
  | '0' :: more@(_ :: _) => .error { problem := .invalidNumber, rest := more ++ rest }
  | _ =>
    let (significand, taken) := absorb 0 digits
    let dropped := digits.length - taken
    match rest with
    | '.' :: rest => readDecimals positive significand dropped rest
    | 'e' :: rest | 'E' :: rest => readExponent positive significand dropped rest
    | _ =>
      if dropped ≠ 0 then toFraction positive significand dropped rest
      else if positive then .ok (.natural significand, rest)
      else if significand = 0 ∨ 0x8000000000000000 < significand then toFraction positive significand 0 rest
      else .ok (.negative significand, rest)

theorem toFraction_rest {positive : Bool} {s : Nat} {e : Int} {text rest : List Char} {x : Number}
    (h : toFraction positive s e text = .ok (x, rest)) : rest = text := by
  unfold toFraction at h
  split at h <;> simp at h
  exact h.2.symm

theorem absorbExponent_length {e : Nat} {text : List Char} :
    (∀ {n rest}, absorbExponent e text = .ok (n, rest) → rest.length ≤ text.length) ∧
      ∀ {rest}, absorbExponent e text = .error rest → rest.length ≤ text.length := by
  induction text generalizing e with
  | nil =>
    simp only [absorbExponent]
    refine ⟨fun h => ?_, nofun⟩
    simp at h
    simp [h]
  | cons c text ih =>
    simp only [absorbExponent]
    split
    · split
      · exact ⟨fun h => Nat.le_trans (ih.1 h) (by simp), fun h => Nat.le_trans (ih.2 h) (by simp)⟩
      · refine ⟨nofun, fun h => ?_⟩
        simp at h
        simp [← h]
    · refine ⟨fun h => ?_, nofun⟩
      simp at h
      simp [← h.2]

theorem splitSign_length (text : List Char) : (splitSign text).2.length ≤ text.length := by
  unfold splitSign
  split
  · simp
  · split
    · simp
    · split <;> simp

theorem readPower_length {positive up : Bool} {s : Nat} {e : Int} {text rest : List Char} {x : Number}
    (h : readPower positive s e up text = .ok (x, rest)) : rest.length ≤ text.length := by
  unfold readPower at h
  split at h
  · simp at h
  · split at h
    · simp at h
    · split at h
      · rename_i ha
        have := absorbExponent_length.1 ha
        rw [toFraction_rest h]
        simp
        omega
      · rename_i after ha
        have := absorbExponent_length.2 ha
        have := (List.dropWhile_suffix (l := after) Char.isDigit).length_le
        split at h <;> simp at h
        simp [← h.2]
        omega

theorem readExponent_length {positive : Bool} {s : Nat} {e : Int} {text rest : List Char} {x : Number}
    (h : readExponent positive s e text = .ok (x, rest)) : rest.length ≤ text.length :=
  Nat.le_trans (readPower_length h) (splitSign_length text)

theorem readDecimals_length {positive : Bool} {s : Nat} {e : Int} {text rest : List Char} {x : Number}
    (h : readDecimals positive s e text = .ok (x, rest)) : rest.length ≤ text.length := by
  have hd := (List.dropWhile_suffix (l := text) Char.isDigit).length_le
  unfold readDecimals at h
  dsimp only at h
  split at h
  · simp at h
  · split at h
    · rename_i heq
      have := readExponent_length h
      rw [heq] at hd
      simp at hd
      omega
    · rename_i heq
      have := readExponent_length h
      rw [heq] at hd
      simp at hd
      omega
    · rw [toFraction_rest h]
      exact hd

theorem readNumber_length {positive : Bool} {text rest : List Char} {x : Number}
    (h : readNumber positive text = .ok (x, rest)) : rest.length ≤ text.length := by
  have hd := (List.dropWhile_suffix (l := text) Char.isDigit).length_le
  unfold readNumber at h
  dsimp only at h
  split at h
  · simp at h
  · simp at h
  · split at h
    · rename_i heq
      have := readDecimals_length h
      rw [heq] at hd
      simp at hd
      omega
    · rename_i heq
      have := readExponent_length h
      rw [heq] at hd
      simp at hd
      omega
    · rename_i heq
      have := readExponent_length h
      rw [heq] at hd
      simp at hd
      omega
    · split at h
      · rw [toFraction_rest h]
        exact hd
      · split at h
        · simp at h
          rw [← h.2]
          exact hd
        · split at h
          · rw [toFraction_rest h]
            exact hd
          · simp at h
            rw [← h.2]
            exact hd

end EnvelopeLog.Json
