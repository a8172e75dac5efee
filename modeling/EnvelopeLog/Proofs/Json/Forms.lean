import EnvelopeLog.Json.Skip
import Mathlib.Tactic.Common

/-!
# Forms of values

The grammar of JSON values: words, numbers, texts with escapes, and lists and objects of values to any depth, with blanks
wherever they may stand (`Form`). Every value is skipped up to its end, whatever brackets are open around it
(`skipValue_of_form`): the induction is over the form of the value, and a bracket that opens is taken off the list of open ones when
the form closes it.
-/

namespace EnvelopeLog.Json

/-! ## Blanks and ends -/

/-- Whether a text holds nothing but blanks. -/
def Blank (text : List Char) : Prop := ∀ c ∈ text, isBlank c

theorem blank_nil : Blank [] := nofun

/-- Blanks in front are skipped. -/
theorem skipBlanks_of_blank {gap : List Char} (h : Blank gap) (text : List Char) :
    skipBlanks (gap ++ text) = skipBlanks text := by
  rw [skipBlanks, List.dropWhile_append_of_pos h, skipBlanks]

theorem skipBlanks_cons {c : Char} (h : isBlank c = false) (text : List Char) : skipBlanks (c :: text) = c :: text := by
  rw [skipBlanks, List.dropWhile_cons, h]
  rfl

theorem Blank.append {a b : List Char} (ha : Blank a) (hb : Blank b) : Blank (a ++ b) :=
  List.forall_mem_append.mpr ⟨ha, hb⟩

/-- Whether a value ends before a text: at its end, or before a comma, a closing bracket or a blank. -/
def Ends (text : List Char) : Prop := ∀ c ∈ text.head?, c = ',' ∨ c = ']' ∨ c = '\x7d' ∨ isBlank c

/-- What ends a value, after blanks, ends it also without them. -/
theorem ends_of_blank {gap text : List Char} (hgap : Blank gap) (h : Ends text) : Ends (gap ++ text) := by
  cases gap with
  | nil => exact h
  | cons b gap =>
    intro c hc
    cases hc
    exact .inr (.inr (.inr (hgap b List.mem_cons_self)))

theorem ends_cons {c : Char} (h : c = ',' ∨ c = ']' ∨ c = '\x7d') (text : List Char) : Ends (c :: text) := by
  intro d hd
  cases hd
  rcases h with h | h | h
  · exact .inl h
  · exact .inr (.inl h)
  · exact .inr (.inr (.inl h))

/-- The characters that end a value are not part of a number. -/
theorem Ends.not_number {text : List Char} (h : Ends text) :
    ∀ c ∈ text.head?, c.isDigit = false ∧ c ≠ '.' ∧ c ≠ 'e' ∧ c ≠ 'E' := by
  intro c hc
  rcases h c hc with rfl | rfl | rfl | hblank
  · decide
  · decide
  · decide
  · simp only [isBlank, Bool.or_eq_true, beq_iff_eq] at hblank
    rcases hblank with ((rfl | rfl) | rfl) | rfl <;> decide

/-- No digit is a blank. -/
theorem not_blank_of_digit {c : Char} (h : c.isDigit) : isBlank c = false := by
  rw [← Bool.not_eq_true]
  intro hblank
  simp only [isBlank, Bool.or_eq_true, beq_iff_eq] at hblank
  rcases hblank with ((rfl | rfl) | rfl) | rfl <;> exact absurd h (by decide)

/-! ## Texts -/

/-- Four hexadecimal digits and the number that they stand for. -/
inductive Hex : List Char → Nat → Prop
  | digits {a b c d : Char} {w x y z : Nat} (first : hexDigit? a = some w) (second : hexDigit? b = some x)
      (third : hexDigit? c = some y) (fourth : hexDigit? d = some z) :
      Hex [a, b, c, d] (((w * 16 + x) * 16 + y) * 16 + z)

/-- Whether a character stands for itself between quotes. -/
def Plain (c : Char) : Prop := c ≠ '"' ∧ c ≠ '\\' ∧ ¬c < ' '

/-- What may stand between the quotes of a text that is skipped: halves of characters count. -/
inductive Quotable : List Char → Prop
  | nil : Quotable []
  | plain {c : Char} {body : List Char} (plain : Plain c) (rest : Quotable body) : Quotable (c :: body)
  | letter {l c : Char} {body : List Char} (escape : escaped? l = some c) (rest : Quotable body) :
      Quotable ('\\' :: l :: body)
  | number {digits body : List Char} {n : Nat} (hex : Hex digits n) (rest : Quotable body) :
      Quotable ('\\' :: 'u' :: (digits ++ body))

/-- Four hexadecimal digits are read as their number. -/
theorem readHex_of_hex {digits : List Char} {n : Nat} (h : Hex digits n) (rest : List Char) :
    readHex (digits ++ rest) = .ok (n, rest) := by
  cases h with
  | digits first second third fourth => simp [readHex, first, second, third, fourth]

/-- A text is skipped up to its closing quote. -/
theorem skipText_of_quotable {body : List Char} (h : Quotable body) (rest : List Char) :
    skipText (body ++ '"' :: rest) = .ok rest := by
  have hescape (escape : List Char) {text : List Char} (hskip : skipEscape (escape ++ text) = .ok text) :
      skipText ('\\' :: (escape ++ text)) = skipText text := by
    rw [skipText, if_neg (by decide), if_pos rfl]
    split <;> rename_i heq <;> rw [hskip] at heq <;> cases heq
    rfl
  induction h with
  | nil => rw [List.nil_append, skipText, if_pos rfl]
  | plain plain _ ih => rw [List.cons_append, skipText, if_neg plain.1, if_neg plain.2.1, if_neg plain.2.2, ih]
  | @letter l c body escape _ ih =>
    have hletter : l ≠ 'u' := by
      rintro rfl
      cases escape
    refine (hescape [l] ?_).trans ih
    rw [List.singleton_append, skipEscape, if_neg hletter, escape]
    rfl
  | @number digits body n hex _ ih =>
    rw [List.cons_append, List.cons_append, List.append_assoc]
    refine (hescape ('u' :: digits) ?_).trans ih
    rw [List.cons_append, skipEscape, if_pos rfl, readHex_of_hex hex]

/-! ## Numbers -/

/-- Digits, at least one. -/
def Digits (text : List Char) : Prop := text ≠ [] ∧ ∀ c ∈ text, c.isDigit

/-- The whole part of a number, without superfluous zeros. -/
inductive Whole : List Char → Prop
  | zero : Whole ['0']
  | digits {c : Char} {more : List Char} (digit : c.isDigit) (nonzero : c ≠ '0') (digits : ∀ d ∈ more, d.isDigit) :
      Whole (c :: more)

/-- The exponent of a number, or nothing. -/
inductive Exponent : List Char → Prop
  | nothing : Exponent []
  | power {e : Char} {sign digits : List Char} (letter : e = 'e' ∨ e = 'E') (signed : sign ∈ [[], ['+'], ['-']])
      (whole : Digits digits) : Exponent (e :: (sign ++ digits))

/-- What may follow the whole part of a number: a point and digits, an exponent, both or nothing. -/
inductive Decimals : List Char → Prop
  | exponent {text : List Char} (exponent : Exponent text) : Decimals text
  | point {digits text : List Char} (decimals : Digits digits) (exponent : Exponent text) :
      Decimals ('.' :: (digits ++ text))

section

variable {text digits rest : List Char}

theorem dropWhile_digits (h : ∀ c ∈ digits, c.isDigit) (hrest : ∀ c ∈ rest.head?, c.isDigit = false) :
    (digits ++ rest).dropWhile Char.isDigit = rest := by
  rw [List.dropWhile_append_of_pos h]
  cases rest with
  | nil => rfl
  | cons c rest => rw [List.dropWhile_cons, hrest c rfl]; rfl

/-- One or more digits are skipped up to what is no digit. -/
theorem skipDigits_of_digits (h : Digits digits) (hrest : ∀ c ∈ rest.head?, c.isDigit = false) :
    skipDigits (digits ++ rest) = .ok rest := by
  obtain ⟨hne, hdigits⟩ := h
  obtain ⟨c, more, rfl⟩ := List.exists_cons_of_ne_nil hne
  obtain ⟨hc, hmore⟩ := List.forall_mem_cons.mp hdigits
  rw [List.cons_append, skipDigits, if_pos hc, dropWhile_digits hmore hrest]

/-- An exponent is skipped with or without a sign. -/
theorem skipExponent_of_digits {sign : List Char} (hsign : sign ∈ [[], ['+'], ['-']]) (h : Digits digits)
    (hrest : ∀ c ∈ rest.head?, c.isDigit = false) : skipExponent (sign ++ digits ++ rest) = .ok rest := by
  have hskip := skipDigits_of_digits h hrest
  rw [skipExponent]
  simp only [List.mem_cons, List.not_mem_nil, or_false] at hsign
  rcases hsign with rfl | rfl | rfl
  · obtain ⟨c, more, rfl⟩ := List.exists_cons_of_ne_nil h.1
    have hc := h.2 c List.mem_cons_self
    have hplus : c ≠ '+' := by
      rintro rfl
      exact absurd hc (by decide)
    have hminus : c ≠ '-' := by
      rintro rfl
      exact absurd hc (by decide)
    rwa [List.nil_append, List.cons_append, splitSign, if_neg hplus, if_neg hminus]
  · exact hskip
  · exact hskip

/-- What begins an exponent, or ends a value without one, is neither a digit nor a point. -/
theorem Exponent.not_digit (h : Exponent text) (hrest : Ends rest) :
    ∀ c ∈ (text ++ rest).head?, c.isDigit = false ∧ c ≠ '.' := by
  cases h with
  | nothing => exact fun c hc => ⟨(hrest.not_number c hc).1, (hrest.not_number c hc).2.1⟩
  | power letter =>
    intro c hc
    cases hc
    rcases letter with rfl | rfl <;> decide

/-- An exponent behind the whole part is skipped, with the letter that it begins with. -/
theorem skipDecimals_of_exponent (h : Exponent text) (hrest : Ends rest) : skipDecimals (text ++ rest) = .ok rest := by
  cases h with
  | nothing =>
    rw [List.nil_append]
    unfold skipDecimals
    split
    · exact absurd rfl (hrest.not_number _ rfl).2.1
    · exact absurd rfl (hrest.not_number _ rfl).2.2.1
    · exact absurd rfl (hrest.not_number _ rfl).2.2.2
    · rfl
  | power letter signed whole =>
    have hskip := skipExponent_of_digits signed whole fun c hc => (hrest.not_number c hc).1
    rcases letter with rfl | rfl <;> exact hskip

/-- Decimals and an exponent are skipped, as far as they are there. -/
theorem skipDecimals_of_decimals (h : Decimals text) (hrest : Ends rest) : skipDecimals (text ++ rest) = .ok rest := by
  cases h with
  | exponent exponent => exact skipDecimals_of_exponent exponent hrest
  | @point digits text decimals exponent =>
    have hstop := exponent.not_digit hrest
    have hafter := skipDecimals_of_exponent exponent hrest
    rw [List.cons_append, List.append_assoc, skipDecimals, skipDigits_of_digits decimals fun c hc => (hstop c hc).1]
    generalize text ++ rest = after at hstop hafter ⊢
    dsimp only
    split
    · exact hafter
    · exact hafter
    · rename_i hlower hupper
      unfold skipDecimals at hafter
      split at hafter
      · exact absurd rfl (hstop _ rfl).2
      · exact absurd rfl (hlower _)
      · exact absurd rfl (hupper _)
      · exact hafter

/-- What may follow the whole part does not begin with a digit. -/
theorem Decimals.not_digit (h : Decimals text) (hrest : Ends rest) : ∀ c ∈ (text ++ rest).head?, c.isDigit = false := by
  cases h with
  | exponent exponent => exact fun c hc => (exponent.not_digit hrest c hc).1
  | point =>
    intro c hc
    cases hc
    decide

/-- A number that consists of a whole part, decimals and an exponent is skipped. -/
theorem skipNumber_of_whole {whole decimals : List Char} (hwhole : Whole whole) (hdecimals : Decimals decimals)
    (hrest : Ends rest) : skipNumber (whole ++ (decimals ++ rest)) = .ok rest := by
  have hskip := skipDecimals_of_decimals hdecimals hrest
  have hstop := hdecimals.not_digit hrest
  generalize decimals ++ rest = after at hskip hstop
  cases hwhole with
  | zero =>
    have hlast : (after.headD ' ').isDigit = false := by
      cases after with
      | nil => rfl
      | cons c after => exact hstop c rfl
    rw [List.singleton_append, skipNumber, if_neg (by decide), if_pos rfl, hlast]
    exact hskip
  | @digits c more digit nonzero hmore =>
    simp [skipNumber, digit, nonzero, dropWhile_digits hmore hstop, hskip]

end

/-! ## Values -/

/-- The character that opens a bracket. -/
def Bracket.opening : Bracket → Char
  | .list => '['
  | .object => '\x7b'

/-- What comes before a value in a bracket: in an object a key and a colon, in a list nothing. -/
inductive Key : Bracket → List Char → Prop
  | list : Key .list []
  | object {body space : List Char} (quotable : Quotable body) (blank : Blank space) :
      Key .object ('"' :: (body ++ '"' :: (space ++ [':'])))

/-- What separates a value in a bracket from what is before it. -/
def separator (first : Bool) : List Char := if first then [] else [',']

/-- What a part of a text is: a value, or what is left of a bracket, either all of it or what follows a value in it. -/
inductive Part where
  | value
  | remainder (first : Bool) (bracket : Bracket)

/-- The form of a part. -/
inductive Form : Part → List Char → Prop
  | word {text : List Char} (word : text ∈ [['n', 'u', 'l', 'l'], ['t', 'r', 'u', 'e'], ['f', 'a', 'l', 's', 'e']]) :
      Form .value text
  | number {sign digits more : List Char} (signed : sign ∈ [[], ['-']]) (whole : Whole digits)
      (decimals : Decimals more) : Form .value (sign ++ (digits ++ more))
  | text {body : List Char} (quotable : Quotable body) : Form .value ('"' :: (body ++ ['"']))
  | bracket {b : Bracket} {text : List Char} (all : Form (.remainder true b) text) : Form .value (b.opening :: text)
  | close {first : Bool} {b : Bracket} {gap : List Char} (blank : Blank gap) :
      Form (.remainder first b) (gap ++ [b.closing])
  | entry {first : Bool} {b : Bracket} {gap before key space text rest : List Char} (blank : Blank gap)
      (blankBefore : Blank before) (isKey : Key b key) (blankAfter : Blank space) (value : Form .value text)
      (remainder : Form (.remainder false b) rest) :
      Form (.remainder first b) (gap ++ (separator first ++ (before ++ (key ++ (space ++ (text ++ rest))))))

/-! ## Skipping -/

section

variable {brackets : List Bracket} {b : Bracket} {gap text value rest : List Char}

/-- What is skipped of a value that begins behind blanks: a bracket that opens, with the first value in it, or all of the
value. -/
theorem skip_value_eq (brackets : List Bracket) (text : List Char) :
    skip brackets true text =
      match skipBlanks text with
      | [] => .error { problem := .endInValue, rest := [] }
      | c :: rest =>
        match if c = '[' then some Bracket.list else if c = '\x7b' then some .object else none with
        | some b =>
          match skipBlanks rest with
          | [] => .error { problem := b.ended, rest := [] }
          | d :: inner =>
            if d = b.closing then skip brackets false inner
            else
              match skipKey b (d :: inner) with
              | .error e => .error e
              | .ok value => skip (b :: brackets) true value
        | none =>
          match skipScalar (c :: rest) with
          | .error e => .error e
          | .ok after => skip brackets false after := by
  rw [skip.eq_def, if_pos rfl]
  split <;> rename_i hb <;> rw [hb]
  dsimp only
  generalize (if _ = '[' then some Bracket.list else if _ = '\x7b' then some .object else none) = opened
  cases opened with
  | some b =>
    dsimp only
    split <;> rename_i hr <;> rw [hr]
    dsimp only
    split
    · rfl
    · split <;> rename_i hk <;> rw [hk]
  | none =>
    dsimp only
    split <;> rename_i hs <;> rw [hs]

theorem skip_rest_eq (b : Bracket) (brackets : List Bracket) (text : List Char) :
    skip (b :: brackets) false text =
      match skipBlanks text with
      | [] => .error { problem := b.ended, rest := [] }
      | c :: rest =>
        if c = ',' then
          match skipKey b rest with
          | .error e => .error e
          | .ok value => skip (b :: brackets) true value
        else if c = b.closing then skip brackets false rest
        else .error { problem := b.expectedComma, rest := c :: rest } := by
  rw [skip.eq_def, if_neg (by decide)]
  dsimp only
  split <;> rename_i hb <;> rw [hb]
  dsimp only
  split
  · split <;> rename_i hk <;> rw [hk]
  · rfl

theorem skip_blank (hgap : Blank gap) : skip brackets true (gap ++ text) = skip brackets true text := by
  rw [skip_value_eq, skipBlanks_of_blank hgap, ← skip_value_eq]

/-- A value that is neither a list nor an object is skipped at once. -/
theorem skip_scalar {c : Char} (hblank : isBlank c = false) (hlist : c ≠ '[') (hobject : c ≠ '\x7b')
    (h : skipScalar (c :: text) = .ok rest) : skip brackets true (c :: text) = skip brackets false rest := by
  simp only [skip_value_eq, skipBlanks_cons hblank, if_neg hlist, if_neg hobject, h]

/-- A bracket that opens is what the next value is skipped in. -/
theorem skip_open {c : Char} (hvalue : skipBlanks text = c :: value) (hclosing : c ≠ b.closing)
    (hkey : skipKey b (c :: value) = .ok rest) :
    skip brackets true (b.opening :: text) = skip (b :: brackets) true rest := by
  cases b <;> rw [Bracket.opening, skip_value_eq, skipBlanks_cons (by decide)] <;> simp [hvalue, hclosing, hkey]

theorem skip_empty (hgap : Blank gap) :
    skip brackets true (b.opening :: (gap ++ b.closing :: rest)) = skip brackets false rest := by
  cases b <;> rw [Bracket.opening, skip_value_eq, skipBlanks_cons (by decide)] <;>
    simp [Bracket.closing, skipBlanks_of_blank hgap, skipBlanks_cons, isBlank]

theorem skip_comma (hgap : Blank gap) (hkey : skipKey b text = .ok rest) :
    skip (b :: brackets) false (gap ++ ',' :: text) = skip (b :: brackets) true rest := by
  rw [skip_rest_eq, skipBlanks_of_blank hgap, skipBlanks_cons (by decide)]
  simp only [if_true, hkey]

theorem skip_close (hgap : Blank gap) :
    skip (b :: brackets) false (gap ++ b.closing :: rest) = skip brackets false rest := by
  cases b <;> simp [skip_rest_eq, Bracket.closing, skipBlanks_of_blank hgap, skipBlanks_cons, isBlank]

/-- A key is skipped, with the blanks before it. -/
theorem skipKey_of_key {key : List Char} (hgap : Blank gap) (hkey : Key b key) (text : List Char) :
    ∃ left, Blank left ∧ skipKey b (gap ++ (key ++ text)) = .ok (left ++ text) := by
  cases hkey with
  | list => exact ⟨gap, hgap, rfl⟩
  | @object body space quotable blank =>
    refine ⟨[], blank_nil, ?_⟩
    rw [skipKey, skipBlanks_of_blank hgap, List.cons_append, skipBlanks_cons (by decide)]
    simp only [List.append_assoc, List.cons_append, List.nil_append, if_true, skipText_of_quotable quotable]
    rw [readColon, skipBlanks_of_blank blank, skipBlanks_cons (by decide)]
    rfl

/-- A value begins with a character that is neither a blank nor the end of a list. -/
theorem Form.exists_head (h : Form .value text) : ∃ c more, text = c :: more ∧ isBlank c = false ∧ c ≠ ']' := by
  cases h with
  | word word =>
    simp only [List.mem_cons, List.not_mem_nil, or_false] at word
    rcases word with rfl | rfl | rfl <;> exact ⟨_, _, rfl, by decide, by decide⟩
  | @number sign digits more signed whole decimals =>
    simp only [List.mem_cons, List.not_mem_nil, or_false] at signed
    rcases signed with rfl | rfl
    · cases whole with
      | zero => exact ⟨_, _, rfl, by decide, by decide⟩
      | digits digit => exact ⟨_, _, rfl, not_blank_of_digit digit, fun hc => absurd (hc ▸ digit) (by decide)⟩
    · exact ⟨_, _, rfl, by decide, by decide⟩
  | text => exact ⟨_, _, rfl, by decide, by decide⟩
  | @bracket b => cases b <;> exact ⟨_, _, rfl, by decide, by decide⟩

/-- The first value in a bracket is found, with the key before it. -/
theorem exists_first {key space : List Char} (hgap : Blank gap) (hkey : Key b key) (hspace : Blank space)
    (hvalue : Form .value text) (rest : List Char) :
    ∃ c more left, skipBlanks (gap ++ (key ++ (space ++ (text ++ rest)))) = c :: more ∧ c ≠ b.closing ∧ Blank left ∧
      skipKey b (c :: more) = .ok (left ++ (text ++ rest)) := by
  cases hkey with
  | list =>
    obtain ⟨c, more, rfl, hblank, hclosing⟩ := hvalue.exists_head
    refine ⟨c, more ++ rest, [], ?_, hclosing, blank_nil, rfl⟩
    rw [skipBlanks_of_blank hgap, List.nil_append, skipBlanks_of_blank hspace, List.cons_append, skipBlanks_cons hblank]
  | object quotable blank =>
    obtain ⟨left, hleft, hskip⟩ := skipKey_of_key blank_nil (.object quotable blank) (space ++ (text ++ rest))
    rw [← List.append_assoc left] at hskip
    refine ⟨'"', _, left ++ space, ?_, by decide, hleft.append hspace, hskip⟩
    rw [skipBlanks_of_blank hgap, List.cons_append, skipBlanks_cons (by decide)]
    rfl

/-- What follows a value in a bracket ends the value. -/
theorem Form.ends (h : Form (.remainder false b) text) (rest : List Char) : Ends (text ++ rest) := by
  cases h with
  | close blank =>
    rw [List.append_assoc]
    refine ends_of_blank blank (ends_cons ?_ rest)
    cases b <;> simp [Bracket.closing]
  | entry blank =>
    rw [List.append_assoc]
    exact ends_of_blank blank (ends_cons (.inl rfl) _)

/-- A number is skipped up to its end. -/
theorem skip_number {sign digits more : List Char} (hsign : sign ∈ [[], ['-']]) (hwhole : Whole digits)
    (hdecimals : Decimals more) (hrest : Ends rest) :
    skip brackets true (sign ++ (digits ++ (more ++ rest))) = skip brackets false rest := by
  have hskip := skipNumber_of_whole hwhole hdecimals hrest
  simp only [List.mem_cons, List.not_mem_nil, or_false] at hsign
  rcases hsign with rfl | rfl
  · obtain ⟨c, others, hc, hdigits⟩ : ∃ c others, digits = c :: others ∧ c.isDigit := by
      cases hwhole with
      | zero => exact ⟨_, _, rfl, by decide⟩
      | digits digit => exact ⟨_, _, rfl, digit⟩
    subst hc
    have hne (d : Char) (hd : d.isDigit = false) : c ≠ d := by
      rintro rfl
      exact absurd hdigits (by rw [hd]; decide)
    refine skip_scalar (not_blank_of_digit hdigits) (hne _ (by decide)) (hne _ (by decide)) ?_
    rw [skipScalar, if_neg (hne _ (by decide)), if_neg (hne _ (by decide)), if_neg (hne _ (by decide)),
      if_neg (hne _ (by decide)), if_pos hdigits]
    exact hskip
  · exact skip_scalar (by decide) (by decide) (by decide) hskip

/-- What it means to skip a part: a value with nothing of a number behind it, or what is left of a bracket. -/
def Part.Skipped : Part → List Char → Prop
  | .value, text => ∀ brackets rest, Ends rest → skip brackets true (text ++ rest) = skip brackets false rest
  | .remainder true b, text => ∀ brackets rest,
    skip brackets true (b.opening :: (text ++ rest)) = skip brackets false rest
  | .remainder false b, text => ∀ brackets rest,
    skip (b :: brackets) false (text ++ rest) = skip brackets false rest

/-- Every part is skipped up to its end. A value in a bracket is skipped in that bracket, and then what is left of the bracket.
-/
theorem Form.skipped {part : Part} (h : Form part text) : part.Skipped text := by
  induction h with
  | word word =>
    intro brackets rest _
    simp only [List.mem_cons, List.not_mem_nil, or_false] at word
    rcases word with rfl | rfl | rfl <;> exact skip_scalar (by decide) (by decide) (by decide) rfl
  | number signed whole decimals =>
    intro brackets rest hrest
    rw [List.append_assoc, List.append_assoc]
    exact skip_number signed whole decimals hrest
  | text quotable =>
    intro brackets rest _
    rw [List.cons_append, List.append_assoc]
    exact skip_scalar (by decide) (by decide) (by decide) (skipText_of_quotable quotable rest)
  | bracket _ ih => exact fun brackets rest _ => ih brackets rest
  | @close first b gap blank =>
    cases first <;> intro brackets rest <;> rw [List.append_assoc]
    · exact skip_close blank
    · exact skip_empty blank
  | @entry first b gap before key space text rest blank blankBefore isKey blankAfter value remainder ih ih' =>
    have hvalue (brackets : List Bracket) (left after : List Char) (hleft : Blank left) :
        skip (b :: brackets) true (left ++ (text ++ (rest ++ after))) = skip brackets false after := by
      rw [skip_blank hleft, ih _ _ (remainder.ends after)]
      exact ih' brackets after
    cases first <;> intro brackets after <;> simp only [List.append_assoc]
    · obtain ⟨left, hleft, hkey⟩ := skipKey_of_key blankBefore isKey (space ++ (text ++ (rest ++ after)))
      rw [separator, if_neg (by decide), List.singleton_append, skip_comma blank hkey, skip_blank hleft]
      exact hvalue brackets space after blankAfter
    · obtain ⟨c, more, left, hfirst, hclosing, hleft, hkey⟩ :=
        exists_first (blank.append blankBefore) isKey blankAfter value (rest ++ after)
      rw [List.append_assoc] at hfirst
      rw [separator, if_pos rfl, List.nil_append, skip_open hfirst hclosing hkey]
      exact hvalue brackets left after hleft

/-- Every value is skipped up to its end, whatever it is. -/
theorem skipValue_of_form (hvalue : Form .value value) (hgap : Blank gap) (hrest : Ends rest) :
    skipValue (gap ++ (value ++ rest)) = .ok rest := by
  rw [skipValue, skip_blank hgap, hvalue.skipped [] rest hrest, skip, if_neg (by decide)]

end

end EnvelopeLog.Json
