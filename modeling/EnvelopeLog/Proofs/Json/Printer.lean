import EnvelopeLog.Json.Printer
import EnvelopeLog.Proofs.Json.Objects

/-!
# Printed records are read back

Whatever characters a text has, its printed form spells the text (`spells_printed`). Members that are printed, with blanks between
them or without, are held by the text that comes out (`holds_printed`), so those that fit a schema are read in the order in which
they were printed (`parseRecord_pretty`, `parseRecord_compact`).
-/

namespace EnvelopeLog.Json

/-! ## Texts -/

theorem hexDigit?_hexDigit : ∀ n < 16, hexDigit? (hexDigit n) = some n := by
  decide

/-- A byte is printed as four hexadecimal digits of its number. -/
theorem hex_printed {n : Nat} (h : n < 256) : Hex ['0', '0', hexDigit (n / 16), hexDigit (n % 16)] n := by
  have hzero : hexDigit? '0' = some 0 := rfl
  have hhex := Hex.digits hzero hzero (hexDigit?_hexDigit (n / 16) (by omega)) (hexDigit?_hexDigit (n % 16) (by omega))
  have hvalue : ((0 * 16 + 0) * 16 + n / 16) * 16 + n % 16 = n := by omega
  rwa [hvalue] at hhex

/-- A printed character in front of what a text is spelled as spells the character in front of the text. -/
theorem spells_printedChar (c : Char) {body cs : List Char} (h : Spells body cs) :
    Spells (printedChar c ++ body) (c :: cs) := by
  unfold printedChar
  split
  · subst c
    exact .letter rfl h
  split
  · subst c
    exact .letter rfl h
  split
  · subst c
    exact .letter rfl h
  split
  · subst c
    exact .letter rfl h
  split
  · subst c
    exact .letter rfl h
  split
  · subst c
    exact .letter rfl h
  split
  · subst c
    exact .letter rfl h
  split
  · rename_i hcontrol
    have hsmall : c.toNat < 32 := hcontrol
    have hnumber := Spells.number (hex_printed (n := c.toNat) (by omega)) (by simp [isLeading]; omega)
      (by simp [isTrailing]; omega) h
    rwa [Char.ofNat_toNat] at hnumber
  · rename_i hquote hbackslash _ _ _ _ _ hcontrol
    exact .plain ⟨hquote, hbackslash, hcontrol⟩ h

/-- The printed characters of a text spell the text. -/
theorem spells_printed (cs : List Char) : Spells (cs.flatMap printedChar) cs := by
  induction cs with
  | nil => exact .nil
  | cons c cs ih => exact spells_printedChar c ih

/-- What is printed of a datum is one way of writing it. -/
theorem written_printed (d : Datum) : Written d (printedDatum d) := by
  cases d with
  | null => exact .null
  | text s => exact .text (spells_printed s.toList)
  | natural n => exact .natural n

/-! ## Members -/

/-- Members after the first, each behind a comma. -/
def printedFollowing (gap space : List Char) (members : Members) : List Char :=
  members.flatMap fun m => ',' :: (gap ++ printedMember space m)

theorem intercalate_printed (gap space : List Char) (m : String × Datum) (members : Members) :
    (',' :: gap).intercalate ((m :: members).map (printedMember space)) =
      printedMember space m ++ printedFollowing gap space members := by
  induction members generalizing m with
  | nil => simp [printedFollowing]
  | cons m' members ih =>
    rw [List.map_cons, List.map_cons, List.intercalate_cons_cons, ← List.map_cons, ih]
    simp [printedFollowing]

section

variable {names : List String} {gap space tail : List Char} (hgap : Blank gap) (hspace : Blank space) (htail : Blank tail)

include hspace in

/-- A printed member is an entry of an object. -/
theorem entry_printed {m : String × Datum} (h : m.1 ∈ names) : Entry names [m] (printedMember space m) := by
  have hentry := Entry.known (spells_printed m.1.toList) h blank_nil hspace (written_printed m.2)
  simpa [printedMember, printedText] using hentry

include hgap hspace htail in
/-- Members that follow others are what is left of an object. -/
theorem remainder_printed {members : Members} (h : ∀ m ∈ members, m.1 ∈ names) :
    Remainder names false members (printedFollowing gap space members ++ (tail ++ ['\x7d'])) := by
  induction members with
  | nil => exact .close htail
  | cons m members ih =>
    obtain ⟨hm, hmembers⟩ := List.forall_mem_cons.mp h
    have hremainder : Remainder names false _ _ := .entry blank_nil hgap (entry_printed hspace hm) (ih hmembers)
    simpa [printedFollowing, separator] using hremainder

end

/-! ## Records -/

theorem holds_nothing {names : List String} : Holds names [] ['\x7b', '\x7d'] := .object blank_nil (.close blank_nil) blank_nil

/-- A text on which members stand with blanks between them holds them. -/
theorem holds_printed {names : List String} {gap space tail : List Char} {m : String × Datum} {members : Members}
    (hgap : Blank gap) (hspace : Blank space) (htail : Blank tail) (h : ∀ m' ∈ m :: members, m'.1 ∈ names) :
    Holds names (m :: members)
      ('\x7b' :: (gap ++ ((',' :: gap).intercalate ((m :: members).map (printedMember space)) ++ (tail ++ ['\x7d'])))) := by
  obtain ⟨hm, hmembers⟩ := List.forall_mem_cons.mp h
  have hremainder : Remainder names true _ _ :=
    .entry hgap blank_nil (entry_printed hspace hm) (remainder_printed hgap hspace htail hmembers)
  have hholds := Holds.object blank_nil hremainder blank_nil
  rw [intercalate_printed]
  simpa [separator] using hholds

/-- A text on which members stand, each on a line of its own, holds them. -/
theorem holds_pretty {names : List String} {members : Members} (h : ∀ m ∈ members, m.1 ∈ names) :
    Holds names members (pretty members).toList := by
  cases members with
  | nil => exact holds_nothing
  | cons m members =>
    have hgap : Blank ['\n', ' ', ' '] := by simp [Blank, isBlank]
    have hspace : Blank [' '] := by simp [Blank, isBlank]
    have htail : Blank ['\n'] := by simp [Blank, isBlank]
    have hholds := holds_printed hgap hspace htail h
    rw [pretty, if_neg (List.cons_ne_nil _ _), String.toList_ofList]
    simpa using hholds

/-- A text on which members stand without blanks holds them. -/
theorem holds_compact {names : List String} {members : Members} (h : ∀ m ∈ members, m.1 ∈ names) :
    Holds names members (compact members).toList := by
  rw [compact, String.toList_ofList]
  cases members with
  | nil => exact holds_nothing
  | cons m members =>
    have hholds := holds_printed blank_nil blank_nil blank_nil h
    simpa using hholds

/-- Members that fit a schema, each printed on a line of its own, are read in their order. -/
theorem parseRecord_pretty {schema : Schema} {members : Members} (h : schema.Fits members) :
    parseRecord schema (pretty members) = .ok members := by
  rw [parseRecord, readRecord_of_holds (holds_pretty h.known) h]

/-- Members that fit a schema, printed on one line, are read in their order. -/
theorem parseRecord_compact {schema : Schema} {members : Members} (h : schema.Fits members) :
    parseRecord schema (compact members) = .ok members := by
  rw [parseRecord, readRecord_of_holds (holds_compact h.known) h]

end EnvelopeLog.Json
