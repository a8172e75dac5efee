import EnvelopeLog.LogFile
import EnvelopeLog.Proofs.Json.Listings
import EnvelopeLog.Proofs.Json.Printer
import EnvelopeLog.Proofs.KeyBlob

/-!
# Settings are read exactly

Settings that are printed are read back. From any object, with its members in any order and with members of other names among them,
those settings are read that it gives: each number is the one that is written under its name, and the default if nothing is
(`GivenBy`). An object that gives none, because a number is there twice, or negative, or a fraction, or too large for its field, is a
fault: nothing is wrapped or cut off (`parse_exact`).
-/

namespace EnvelopeLog.Settings

open Json

/-- Whether a number is the only one that is written under a name, or the default if nothing is. -/
def Chosen (found : List (List Char)) (default n : Nat) : Prop := found = [] ∧ n = default ∨ found = [Nat.toDigits 10 n]

/-- Whether the values under a name are not those of one natural number below a limit: there are several, or one of them is a number
that is negative, a fraction or too large. -/
def Misgiven (limit : Nat) (found : List (List Char)) : Prop := 1 < found.length ∨ ∃ value ∈ found, OutOfRange limit value

/-- Whether settings are those that an object with the given members gives. -/
structure GivenBy (entries : List (String × List Char)) (s : Settings) : Prop where
  keyBits : Chosen (values entries "rsa_key_bits") ({} : Settings).keyBits.toNat s.keyBits.toNat
  maxFieldLength : Chosen (values entries "max_field_len") ({} : Settings).maxFieldLength.toNat s.maxFieldLength.toNat
  bufferCapacity :
    Chosen (values entries "initial_buffer_capacity") ({} : Settings).bufferCapacity.toNat s.bufferCapacity.toNat

section

variable {found : List (List Char)} {default m n limit bound : Nat} {range name : String} {members : Members}
  {entries : List (String × List Char)} {text : String} {s s' : Settings}

/-! ## Numbers -/

/-- Values choose one number at most. -/
theorem Chosen.unique (h : Chosen found default m) (h' : Chosen found default n) : m = n := by
  rcases h with ⟨rfl, rfl⟩ | rfl
  · rcases h' with ⟨-, hn⟩ | hn
    · exact hn.symm
    · cases hn
  · rcases h' with ⟨hn, -⟩ | hn
    · cases hn
    · exact toDigits_inj (List.singleton_inj.mp hn)

/-- Values that choose a number below the limit are not misgiven. -/
theorem Chosen.not_misgiven (h : Chosen found default n) (hn : n < limit) : ¬Misgiven limit found := by
  rintro (hlength | ⟨value, hvalue, hrange⟩)
  · rcases h with ⟨rfl, -⟩ | rfl
    · exact absurd hlength (by decide)
    · exact absurd hlength (Nat.lt_irrefl 1)
  · rcases h with ⟨rfl, -⟩ | rfl
    · cases hvalue
    · rw [List.mem_singleton.mp hvalue] at hrange
      exact not_outOfRange hn hrange

/-- A number that is chosen is one that its field takes. -/
theorem Chosen.given (h : Chosen found default n) (hbound : n ≤ bound) (hlt : n < 0x10000000000000000) :
    ∃ d, (Kind.natural range bound).Given found d := by
  rcases h with ⟨rfl, -⟩ | rfl
  · exact ⟨none, .absent⟩
  · exact ⟨some (.natural n), .once ⟨hbound, hlt⟩ (.natural n)⟩

/-- A number field is left out, or given once within its bound and found as it was written. -/
theorem number?_of_given (h : (Kind.natural range bound).Given found (members.lookup name)) :
    found = [] ∧ number? members name = none ∨
      ∃ n, n ≤ bound ∧ found = [Nat.toDigits 10 n] ∧ number? members name = some n := by
  unfold number?
  generalize members.lookup name = datum at h
  cases h with
  | absent => exact .inl ⟨rfl, rfl⟩
  | @once d value takes written =>
    cases written with
    | null => cases takes
    | text => cases takes
    | natural n => exact .inr ⟨n, takes.1, rfl, rfl⟩

/-- The number of a field whose type holds all numbers up to its bound is chosen among what is found under its name. -/
theorem chosen_of_given {α : Type} {ofNat : Nat → α} (toNat : α → Nat) (hexact : ∀ n ≤ bound, toNat (ofNat n) = n)
    (h : (Kind.natural range bound).Given found (members.lookup name)) (default : α) :
    Chosen found (toNat default) (toNat (((number? members name).map ofNat).getD default)) := by
  rcases number?_of_given h with ⟨hfound, hnone⟩ | ⟨n, hbound, hfound, hsome⟩
  · rw [hnone]
    exact .inl ⟨hfound, rfl⟩
  · rw [hsome, Option.map_some, Option.getD_some, hexact n hbound]
    exact .inr hfound

/-! ## Reading -/

theorem numeric_schema : schema.Numeric := by
  intro field hfield
  simp only [schema, List.mem_cons, List.not_mem_nil, or_false] at hfield
  rcases hfield with rfl | rfl | rfl <;> exact ⟨_, _, rfl⟩

/-- Settings are read exactly of the members that their form finds. -/
theorem parse_eq_ok_iff :
    parse text = .ok s ↔ ∃ members, readRecord schema text.toList = .ok members ∧ ofMembers members = s := by
  unfold parse parseRecord
  cases hread : readRecord schema text.toList with
  | error e => simp [Except.map]
  | ok members => simp [Except.map]

/-- The settings that are read of an object are those that it gives. -/
theorem GivenBy.of_parse (hobject : IsObject entries text.toList) (h : parse text = .ok s) : s.GivenBy entries := by
  obtain ⟨members, hread, rfl⟩ := parse_eq_ok_iff.mp h
  have hgiven {name range : String} {bound : Nat} (hfield : schema.field? name = some ⟨name, .natural range bound, false⟩) :
      (Kind.natural range bound).Given (values entries name) (members.lookup name) :=
    readRecord_given numeric_schema hobject hread hfield
  have hlarge (n : Nat) (hn : n ≤ 0xffffffffffffffff) : (UInt64.ofNat n).toNat = n :=
    UInt64.toNat_ofNat_of_lt' (Nat.lt_succ_of_le hn)
  have hsmall (n : Nat) (hn : n ≤ 0xffffffff) : (UInt32.ofNat n).toNat = n := UInt32.toNat_ofNat_of_lt' (Nat.lt_succ_of_le hn)
  exact ⟨chosen_of_given UInt64.toNat hlarge (hgiven rfl) _, chosen_of_given UInt32.toNat hsmall (hgiven rfl) _,
    chosen_of_given UInt64.toNat hlarge (hgiven rfl) _⟩

/-- Members give one record of settings at most. -/
theorem GivenBy.unique (h : s.GivenBy entries) (h' : s'.GivenBy entries) : s = s' := by
  obtain ⟨keyBits, maxFieldLength, bufferCapacity⟩ := s
  obtain ⟨keyBits', maxFieldLength', bufferCapacity'⟩ := s'
  have hbits : keyBits = keyBits' := UInt64.toNat_inj.mp (h.keyBits.unique h'.keyBits)
  have hlength : maxFieldLength = maxFieldLength' := UInt32.toNat_inj.mp (h.maxFieldLength.unique h'.maxFieldLength)
  have hcapacity : bufferCapacity = bufferCapacity' := UInt64.toNat_inj.mp (h.bufferCapacity.unique h'.bufferCapacity)
  rw [hbits, hlength, hcapacity]

/-- From an object the settings that it gives are read, and no others. -/
theorem parse_eq_ok_iff_givenBy (hobject : IsObject entries text.toList) : parse text = .ok s ↔ s.GivenBy entries := by
  refine ⟨GivenBy.of_parse hobject, fun h => ?_⟩
  have hoptional : ∀ field ∈ schema.fields, field.mandatory = false := by decide
  obtain ⟨members, hread⟩ : ∃ members, readRecord schema text.toList = .ok members := by
    refine exists_readRecord hoptional hobject fun name field hfield => ?_
    have hmem := Schema.mem_of_field? hfield
    rw [← Schema.name_of_field? hfield]
    simp only [schema, List.mem_cons, List.not_mem_nil, or_false] at hmem
    rcases hmem with rfl | rfl | rfl
    · exact h.keyBits.given (Nat.le_of_lt_succ s.keyBits.toNat_lt) s.keyBits.toNat_lt
    · exact h.maxFieldLength.given (Nat.le_of_lt_succ s.maxFieldLength.toNat_lt)
        (Nat.lt_trans s.maxFieldLength.toNat_lt (by decide))
    · exact h.bufferCapacity.given (Nat.le_of_lt_succ s.bufferCapacity.toNat_lt) s.bufferCapacity.toNat_lt
  have hparse := parse_eq_ok_iff.mpr ⟨members, hread, rfl⟩
  rwa [(GivenBy.of_parse hobject hparse).unique h] at hparse

/-- A number that is there twice or does not fit its field is a fault. -/
theorem parse_error_of_misgiven (hobject : IsObject entries text.toList)
    (h : Misgiven (2 ^ 64) (values entries "rsa_key_bits") ∨ Misgiven (2 ^ 32) (values entries "max_field_len") ∨
      Misgiven (2 ^ 64) (values entries "initial_buffer_capacity")) : ∃ fault, parse text = .error fault := by
  cases hparse : parse text with
  | error fault => exact ⟨fault, rfl⟩
  | ok s =>
    have hgiven := GivenBy.of_parse hobject hparse
    rcases h with hbits | hlength | hcapacity
    · exact absurd hbits (hgiven.keyBits.not_misgiven s.keyBits.toNat_lt)
    · exact absurd hlength (hgiven.maxFieldLength.not_misgiven s.maxFieldLength.toNat_lt)
    · exact absurd hcapacity (hgiven.bufferCapacity.not_misgiven s.bufferCapacity.toNat_lt)

/-! ## Printing -/

/-- The members of settings are what their form asks for. -/
theorem fits_members (s : Settings) : schema.Fits s.members where
  taken m hm := by
    simp only [members, List.mem_cons, List.not_mem_nil, or_false] at hm
    rcases hm with rfl | rfl | rfl
    · exact ⟨_, rfl, Nat.le_of_lt_succ s.keyBits.toNat_lt, s.keyBits.toNat_lt⟩
    · exact ⟨_, rfl, Nat.le_of_lt_succ s.maxFieldLength.toNat_lt, Nat.lt_trans s.maxFieldLength.toNat_lt (by decide)⟩
    · exact ⟨_, rfl, Nat.le_of_lt_succ s.bufferCapacity.toNat_lt, s.bufferCapacity.toNat_lt⟩
  nodup := by
    simp [members]
  complete f hf hmandatory := by
    simp only [schema, List.mem_cons, List.not_mem_nil, or_false] at hf
    rcases hf with rfl | rfl | rfl <;> cases hmandatory

/-- Settings are what their members make. -/
theorem ofMembers_members (s : Settings) : ofMembers s.members = s := by
  simp [ofMembers, members, number?, List.lookup_cons]

/-- Settings that are printed are read back. -/
theorem parse_render (s : Settings) : parse s.render = .ok s := by
  rw [parse, render, parseRecord_compact (fits_members s), Except.map, ofMembers_members]

/-! ## Limits -/

/-- A key size passes exactly if it is in the range and a number of whole bytes. -/
theorem checkKeyBits_eq_ok_iff (bits : Nat) : checkKeyBits bits = .ok () ↔ 1024 ≤ bits ∧ bits ≤ 4096 ∧ bits % 8 = 0 := by
  rw [checkKeyBits, minKeyBits, maxKeyBits, ite_error_eq_ok_iff, ite_error_eq_ok_iff, eq_self, and_true]
  omega

/-- Settings pass exactly if their key size does and fields may hold something. -/
theorem check_eq_ok_iff (s : Settings) :
    s.check = .ok () ↔
      1024 ≤ s.keyBits.toNat ∧ s.keyBits.toNat ≤ 4096 ∧ s.keyBits.toNat % 8 = 0 ∧ 0 < s.maxFieldLength.toNat := by
  have hzero : s.maxFieldLength = 0 ↔ s.maxFieldLength.toNat = 0 := by
    rw [← UInt32.toNat_inj]
    rfl
  have hbits := checkKeyBits_eq_ok_iff s.keyBits.toNat
  unfold check
  split
  · rename_i hfault
    rw [hfault] at hbits
    simp only [reduceCtorEq, false_iff] at hbits ⊢
    omega
  · rename_i hsound
    have hlimits := hbits.mp hsound
    rw [ite_error_eq_ok_iff, hzero, eq_self, and_true]
    omega

/-- Checked settings are those that are read and pass. -/
theorem parseChecked_eq_ok_iff : parseChecked text = .ok s ↔ parse text = .ok s ∧ s.check = .ok () := by
  unfold parseChecked
  cases parse text with
  | error e => simp
  | ok s' =>
    dsimp only
    rw [Except.ok.injEq]
    split
    · rename_i hfault
      simp only [reduceCtorEq, false_iff, not_and]
      rintro rfl
      simp [hfault]
    · rename_i hsound
      rw [Except.ok.injEq, iff_self_and]
      rintro rfl
      exact hsound

/-- Settings are loaded if the file holds a text from which they are read and they are within the limits. -/
theorem loadSettings_eq_ok_iff {fs : FileSystem} {path : String} :
    loadSettings fs path = .ok s ↔ ∃ text, fs.readText path = .ok text ∧ parse text = .ok s ∧ s.check = .ok () := by
  unfold loadSettings
  cases fs.readText path with
  | error e => simp
  | ok text =>
    dsimp only
    rw [mapError_eq_ok_iff, parseChecked_eq_ok_iff]
    simp

/-- Settings that are printed are read back. From an object, whatever its members and their order, the settings are read that it gives,
with the defaults for what it leaves out, and if a number is there twice, is negative or a fraction, or is too large for its field,
then that is a fault. Settings are loaded from a file exactly if they are read from its text and are within the limits. -/
theorem parse_exact :
    (∀ s, parse s.render = .ok s) ∧
      (∀ entries text, IsObject entries text.toList →
        (∀ s, parse text = .ok s ↔ s.GivenBy entries) ∧
          (Misgiven (2 ^ 64) (values entries "rsa_key_bits") ∨ Misgiven (2 ^ 32) (values entries "max_field_len") ∨
              Misgiven (2 ^ 64) (values entries "initial_buffer_capacity") →
            ∃ fault, parse text = .error fault)) ∧
      ∀ fs path s, loadSettings fs path = .ok s ↔
        ∃ text, fs.readText path = .ok text ∧ parse text = .ok s ∧ 1024 ≤ s.keyBits.toNat ∧ s.keyBits.toNat ≤ 4096 ∧
          s.keyBits.toNat % 8 = 0 ∧ 0 < s.maxFieldLength.toNat := by
  refine ⟨parse_render, fun entries text hobject => ?_, fun fs path s => ?_⟩
  · exact ⟨fun s => parse_eq_ok_iff_givenBy hobject, parse_error_of_misgiven hobject⟩
  · rw [loadSettings_eq_ok_iff]
    simp only [check_eq_ok_iff]

/-- Two of the numbers, at the limits of their fields, in another order than they are printed in, and a member of another name. -/
def arrangedText : String :=
  "\x7b \"x\":[null,\x7b\x7d],\"max_field_len\" : 4294967295,\n\"\\u0072sa_key_bits\":18446744073709551615\x7d"

/-- The least number that is too large for its field. -/
def overflowingText : String := "\x7b\"max_field_len\":4294967296\x7d"

/-- The largest numbers in another order with an unknown member, and a number that is too large. -/
theorem parse_exact_sample :
    parse arrangedText = .ok { keyBits := 18446744073709551615, maxFieldLength := 4294967295 } ∧
      ∃ fault, parse overflowingText = .error fault := by
  have hblank {c : Char} (hc : isBlank c) : Blank [c] := List.forall_mem_singleton.mpr hc
  have hnumber (c : Char) (more : List Char) (hc : c.isDigit) (hnonzero : c ≠ '0') (hmore : more.all Char.isDigit) :
      Form .value ([] ++ (c :: more ++ [])) :=
    .number List.mem_cons_self (.digits hc hnonzero (List.all_eq_true.mp hmore)) (.exponent .nothing)
  have hempty : Form .value ['\x7b', '\x7d'] := .bracket (b := .object) (.close blank_nil)
  have hlist := Form.bracket (b := .list) (.entry blank_nil blank_nil .list blank_nil (.word (by simp : ['n', 'u', 'l', 'l'] ∈ _))
    (.entry blank_nil blank_nil .list blank_nil hempty (.close blank_nil)))
  have hescaped : Spells _ "rsa_key_bits".toList :=
    .number (hex_printed (n := 0x72) (by decide)) rfl rfl (spells_printed "sa_key_bits".toList)
  have hbits : Listing false _ _ := .entry blank_nil (hblank (c := '\n') rfl) hescaped blank_nil blank_nil
    (hnumber '1' "8446744073709551615".toList rfl (by decide) rfl) (.close blank_nil)
  have hlength : Listing false _ _ := .entry blank_nil blank_nil (spells_printed "max_field_len".toList)
    (hblank (c := ' ') rfl) (hblank (c := ' ') rfl) (hnumber '4' "294967295".toList rfl (by decide) rfl) hbits
  have hobject : IsObject _ arrangedText.toList := .object blank_nil (.entry blank_nil (hblank (c := ' ') rfl)
    (spells_printed "x".toList) blank_nil blank_nil hlist hlength) blank_nil
  have hlarge : Listing true _ _ := .entry blank_nil blank_nil (spells_printed "max_field_len".toList) blank_nil blank_nil
    (hnumber '4' "294967296".toList rfl (by decide) rfl) (.close blank_nil)
  have hoverflowing : IsObject _ overflowingText.toList := .object blank_nil hlarge blank_nil
  constructor
  · refine ((parse_exact.2.1 _ _ hobject).1 _).mpr ⟨.inr ?_, .inr ?_, .inl ⟨?_, rfl⟩⟩
    · decide
    · decide
    · decide
  · refine (parse_exact.2.1 _ _ hoverflowing).2 (.inr (.inl (.inr ⟨Nat.toDigits 10 (2 ^ 32), ?_, .large (Nat.le_refl _)⟩)))
    decide

end

end EnvelopeLog.Settings
