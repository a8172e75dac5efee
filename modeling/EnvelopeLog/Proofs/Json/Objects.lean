import EnvelopeLog.Json.Record
import EnvelopeLog.Proofs.Json.Forms

/-!
# Objects that hold members

A text holds members if it is an object in which they stand in their order, spelled with whatever escapes, with blanks wherever
they may stand and with any number of members of other names between them (`Holds`). A schema that the members fit reads them,
and nothing else, from every such text (`readRecord_of_holds`), and the order makes no difference to what is looked up
(`lookup_perm`).
-/

namespace EnvelopeLog.Json

/-! ## Spellings -/

/-- Which characters a text between quotes spells: each is written as itself or as one of its escapes, and those outside the
basic plane as themselves or as two halves. -/
inductive Spells : List Char → List Char → Prop
  | nil : Spells [] []
  | plain {c : Char} {body cs : List Char} (plain : Plain c) (rest : Spells body cs) : Spells (c :: body) (c :: cs)
  | letter {l c : Char} {body cs : List Char} (escape : escaped? l = some c) (rest : Spells body cs) :
      Spells ('\\' :: l :: body) (c :: cs)
  | number {digits body cs : List Char} {n : Nat} (hex : Hex digits n) (notLeading : isLeading n = false)
      (notTrailing : isTrailing n = false) (rest : Spells body cs) :
      Spells ('\\' :: 'u' :: (digits ++ body)) (Char.ofNat n :: cs)
  | pair {first second body cs : List Char} {m n : Nat} (hex : Hex first m) (leading : isLeading m) (hex' : Hex second n)
      (trailing : isTrailing n) (rest : Spells body cs) :
      Spells ('\\' :: 'u' :: (first ++ '\\' :: 'u' :: (second ++ body)))
        (Char.ofNat ((m - 0xd800) * 0x400 + (n - 0xdc00) + 0x10000) :: cs)

/-- A text is read as what it spells. -/
theorem readText_of_spells {body cs : List Char} (h : Spells body cs) (rest : List Char) :
    readText (body ++ '"' :: rest) = .ok (cs, rest) := by
  have hescape (escape : List Char) {text cs : List Char} {c : Char} (hread : readEscape (escape ++ text) = .ok (c, text))
      (htext : readText text = .ok (cs, rest)) : readText ('\\' :: (escape ++ text)) = .ok (c :: cs, rest) := by
    rw [readText, if_neg (by decide), if_pos rfl]
    split <;> rename_i heq <;> rw [hread] at heq <;> cases heq
    rw [htext]
  induction h with
  | nil => rw [List.nil_append, readText, if_pos rfl]
  | plain plain _ ih => rw [List.cons_append, readText, if_neg plain.1, if_neg plain.2.1, if_neg plain.2.2, ih]
  | @letter l c body cs escape _ ih =>
    have hletter : l ≠ 'u' := by
      rintro rfl
      cases escape
    refine hescape [l] ?_ ih
    rw [List.singleton_append, readEscape, if_neg hletter, escape]
  | @number digits body cs n hex notLeading notTrailing _ ih =>
    rw [List.cons_append, List.cons_append, List.append_assoc]
    refine hescape ('u' :: digits) ?_ ih
    simp [readEscape, readCodePoint, readHex_of_hex hex, notLeading, notTrailing]
  | @pair first second body cs m n hex leading hex' trailing _ ih =>
    have hwhole : isTrailing m = false := by
      simp only [isLeading, isTrailing, Bool.and_eq_true, decide_eq_true_eq, Bool.and_eq_false_iff,
        decide_eq_false_iff_not] at leading ⊢
      omega
    have hassoc : first ++ '\\' :: 'u' :: (second ++ body) ++ '"' :: rest =
        (first ++ '\\' :: 'u' :: second) ++ (body ++ '"' :: rest) := by simp
    rw [List.cons_append, List.cons_append, hassoc]
    refine hescape ('u' :: (first ++ '\\' :: 'u' :: second)) ?_ ih
    simp [readEscape, readCodePoint, readHex_of_hex hex, readHex_of_hex hex', leading, trailing, hwhole]

/-! ## Values of fields -/

/-- How the value of a field is written. -/
inductive Written : Datum → List Char → Prop
  | null : Written .null ['n', 'u', 'l', 'l']
  | text {s : String} {body : List Char} (spelled : Spells body s.toList) : Written (.text s) ('"' :: (body ++ ['"']))
  | natural (n : Nat) : Written (.natural n) (Nat.toDigits 10 n)

/-- Whether a field of some kind takes a value. -/
def Kind.Takes : Kind → Datum → Prop
  | .text, .text _ | .optionalText, .text _ | .optionalText, .null => True
  | .natural _ bound, .natural n => n ≤ bound ∧ n < 0x10000000000000000
  | _, _ => False

section

variable {n : Nat} {rest : List Char}

/-- A further digit is absorbed as long as the number stays below `2 ^ 64`. -/
theorem absorb_append {s t : Nat} {digits : List Char} {c : Char} (h : absorb s digits = (t, digits.length))
    (hlt : t * 10 + digit c < 0x10000000000000000) :
    absorb s (digits ++ [c]) = (t * 10 + digit c, (digits ++ [c]).length) := by
  induction digits generalizing s with
  | nil =>
    cases h
    simp [absorb, hlt]
  | cons d digits ih =>
    rw [absorb] at h
    dsimp only at h
    split at h
    · rename_i hnext
      obtain ⟨hvalue, hcount⟩ := Prod.mk.inj h
      have hall : absorb (s * 10 + digit d) digits = (t, digits.length) :=
        Prod.ext hvalue (Nat.succ_inj.mp hcount)
      rw [List.cons_append, absorb]
      simp only [hnext, if_true, ih hall, List.length_cons]
    · cases h

/-- The digits of a number below `2 ^ 64` are absorbed. -/
theorem absorb_toDigits (h : n < 0x10000000000000000) :
    absorb 0 (Nat.toDigits 10 n) = (n, (Nat.toDigits 10 n).length) := by
  induction n using Nat.strongRecOn with
  | ind n ih =>
    have hdigit {d : Nat} (hd : d < 10) : digit d.digitChar = d := by
      rw [digit, Nat.toNat_digitChar_of_lt_ten hd]
      omega
    rcases Nat.lt_or_ge n 10 with hn | hn
    · simp [Nat.toDigits_of_lt_base hn, absorb, hdigit hn, h]
    · rw [Nat.toDigits_of_base_le (by decide) hn]
      have hlast := hdigit (Nat.mod_lt n (show 0 < 10 by decide))
      have hvalue : n / 10 * 10 + digit (n % 10).digitChar = n := by rw [hlast]; omega
      have happend := absorb_append (ih (n / 10) (by omega) (by omega)) (c := (n % 10).digitChar) (by rwa [hvalue])
      rwa [hvalue] at happend

/-- A number is written without superfluous zeros. -/
theorem toDigits_of_zero {more : List Char} (h : Nat.toDigits 10 n = '0' :: more) : more = [] := by
  have hzero : n = 0 := by
    induction n using Nat.strongRecOn generalizing more with
    | ind n ih =>
      rcases Nat.lt_or_ge n 10 with hn | hn
      · have hchar : ∀ m < 10, m.digitChar = '0' → m = 0 := by decide
        rw [Nat.toDigits_of_lt_base hn] at h
        exact hchar n hn (List.cons.inj h).1
      · obtain ⟨c, digits, hdigits⟩ := List.exists_cons_of_ne_nil (Nat.toDigits_ne_nil (n := n / 10) (b := 10))
        rw [Nat.toDigits_of_base_le (by decide) hn, hdigits] at h
        cases h
        have := ih (n / 10) (by omega) hdigits
        omega
  subst hzero
  exact (List.cons.inj h).2.symm

/-- The digits of a number below `2 ^ 64` are read as the number. -/
theorem readNumber_toDigits (h : n < 0x10000000000000000) (hrest : Ends rest) :
    readNumber true (Nat.toDigits 10 n ++ rest) = .ok (.natural n, rest) := by
  have hdigits : ∀ c ∈ Nat.toDigits 10 n, c.isDigit := fun c hc => Nat.isDigit_of_mem_toDigits (by decide) (by decide) hc
  have hstop := hrest.not_number
  have hdrop := dropWhile_digits hdigits fun c hc => (hstop c hc).1
  have htake : (Nat.toDigits 10 n ++ rest).takeWhile Char.isDigit = Nat.toDigits 10 n :=
    List.append_cancel_right (hdrop ▸ List.takeWhile_append_dropWhile)
  rw [readNumber, htake, hdrop]
  dsimp only
  split
  · exact absurd ‹_› Nat.toDigits_ne_nil
  · exact absurd (toDigits_of_zero ‹_›) (List.cons_ne_nil _ _)
  · rw [absorb_toDigits h, Nat.sub_self]
    dsimp only
    split
    · exact absurd rfl (hstop _ rfl).2.1
    · exact absurd rfl (hstop _ rfl).2.2.1
    · exact absurd rfl (hstop _ rfl).2.2.2
    · rfl

end

/-- Blanks before a datum are skipped. -/
theorem readDatum_of_blank {kind : Kind} {gap : List Char} (h : Blank gap) (text : List Char) :
    readDatum kind (gap ++ text) = readDatum kind text := by
  unfold readDatum
  rw [skipBlanks_of_blank h]

/-- A value that a field takes is read, however it is written. -/
theorem readDatum_of_written {kind : Kind} {d : Datum} (htakes : kind.Takes d) {value rest : List Char}
    (h : Written d value) (hrest : Ends rest) : readDatum kind (value ++ rest) = .ok (d, rest) := by
  unfold readDatum
  cases h with
  | null =>
    cases kind with
    | optionalText => rfl
    | text => cases htakes
    | natural => cases htakes
  | @text s body spelled =>
    have htext : readTextValue ('"' :: (body ++ '"' :: rest)) = .ok (.text s, rest) := by
      rw [readTextValue, readText_of_spells spelled]
      dsimp only
      rw [String.ofList_toList]
    rw [List.cons_append, List.append_assoc, skipBlanks_cons (by decide)]
    cases kind with
    | text => exact htext
    | optionalText => exact htext
    | natural => cases htakes
  | natural n =>
    cases kind with
    | text => cases htakes
    | optionalText => cases htakes
    | natural range bound =>
      obtain ⟨hbound, hlt⟩ := htakes
      have hnumber := readNumber_toDigits hlt hrest
      obtain ⟨c, digits, hdigits⟩ := List.exists_cons_of_ne_nil (Nat.toDigits_ne_nil (n := n) (b := 10))
      have hc : c.isDigit := Nat.isDigit_of_mem_toDigits (by decide) (by decide) (hdigits ▸ List.mem_cons_self)
      have hminus : c ≠ '-' := by
        rintro rfl
        exact absurd hc (by decide)
      rw [hdigits, List.cons_append] at hnumber ⊢
      rw [skipBlanks_cons (not_blank_of_digit hc)]
      simp only [readNaturalValue, if_neg hminus, if_pos hc, hnumber, boundedNatural, if_pos hbound]

/-! ## Members -/

/-- A text between two members or behind a value: the member that it is, if its name is among the known ones. -/
inductive Entry (names : List String) : Members → List Char → Prop
  | known {name : String} {d : Datum} {key gap space value : List Char} (spelled : Spells key name.toList)
      (known : name ∈ names) (blank : Blank gap) (blankAfter : Blank space) (written : Written d value) :
      Entry names [(name, d)] ('"' :: (key ++ '"' :: (gap ++ ':' :: (space ++ value))))
  | unknown {name : String} {key gap space value : List Char} (spelled : Spells key name.toList) (unknown : name ∉ names)
      (blank : Blank gap) (blankAfter : Blank space) (form : Form .value value) :
      Entry names [] ('"' :: (key ++ '"' :: (gap ++ ':' :: (space ++ value))))

/-- What is left of an object and the members in it, from the first one on or behind another one. -/
inductive Remainder (names : List String) : Bool → Members → List Char → Prop
  | close {first : Bool} {gap : List Char} (blank : Blank gap) : Remainder names first [] (gap ++ ['\x7d'])
  | entry {first : Bool} {now later : Members} {gap before text rest : List Char} (blank : Blank gap)
      (blankBefore : Blank before) (entry : Entry names now text) (remainder : Remainder names false later rest) :
      Remainder names first (now ++ later) (gap ++ (separator first ++ (before ++ (text ++ rest))))

/-- Whether a text is an object that holds members in their order, and otherwise only members with names that are not known. -/
inductive Holds (names : List String) (members : Members) : List Char → Prop
  | object {gap body tail : List Char} (blank : Blank gap) (remainder : Remainder names true members body)
      (blankAfter : Blank tail) : Holds names members (gap ++ '\x7b' :: (body ++ tail))

/-- Whether members fit a schema: each is a value of a field, none occurs twice, and no mandatory one is missing. -/
structure Schema.Fits (schema : Schema) (members : Members) : Prop where
  taken : ∀ m ∈ members, ∃ field, (schema.fields.find? fun f => f.name == m.1) = some field ∧ field.kind.Takes m.2
  nodup : (members.map Prod.fst).Nodup
  complete : ∀ f ∈ schema.fields, f.mandatory → (members.lookup f.name).isSome

section

variable {schema : Schema} {members done now : Members} {first : Bool} {text rest : List Char}

/-- The names of members that fit a schema are those of fields. -/
theorem Schema.Fits.known (h : schema.Fits members) : ∀ m ∈ members, m.1 ∈ schema.fields.map (·.name) := by
  intro m hm
  obtain ⟨field, hfield, -⟩ := h.taken m hm
  have hname := List.find?_some hfield
  rw [← beq_iff_eq.mp hname]
  exact List.mem_map_of_mem (List.mem_of_find?_eq_some hfield)

theorem lookup_eq_none {name : String} (h : name ∉ done.map Prod.fst) : done.lookup name = none := by
  rw [List.lookup_eq_none_iff]
  intro m hm
  rw [bne_iff_ne]
  rintro rfl
  exact h (List.mem_map_of_mem hm)

/-- What follows a member ends its value. -/
theorem Remainder.ends {names : List String} (h : Remainder names false members text) (rest : List Char) :
    Ends (text ++ rest) := by
  cases h with
  | close blank =>
    rw [List.append_assoc]
    exact ends_of_blank blank (ends_cons (.inr (.inr rfl)) rest)
  | entry blank =>
    rw [List.append_assoc]
    exact ends_of_blank blank (ends_cons (.inl rfl) _)

/-- The members of an object from one on whose name is read. -/
theorem readMembers_of_key {key name afterKey : List Char} (hkey : nextKey first (skipBlanks text) = .ok key)
    (hname : readText key = .ok (name, afterKey)) :
    readMembers schema done first text =
      match readMember schema done (String.ofList name) afterKey with
      | .error e => .error e
      | .ok (more, rest) => readMembers schema more false rest := by
  rw [readMembers]
  split
  · rename_i heq
    rw [heq] at hkey
    cases first <;> cases hkey
  · split <;> rename_i heq <;> rw [hkey] at heq <;> cases heq
    split <;> rename_i heq <;> rw [hname] at heq <;> cases heq
    split <;> rename_i heq <;> rw [heq]

/-- The members of an object from one on whose name and value are read. -/
theorem readMembers_step {more : Members} {key name afterKey : List Char}
    (hkey : nextKey first (skipBlanks text) = .ok key) (hname : readText key = .ok (name, afterKey))
    (hmember : readMember schema done (String.ofList name) afterKey = .ok (more, rest)) :
    readMembers schema done first text = readMembers schema more false rest := by
  rw [readMembers_of_key hkey hname, hmember]

/-- The quote of the next name stands behind its separator, with blanks around that. -/
theorem nextKey_of_entry {gap before : List Char} (hgap : Blank gap) (hbefore : Blank before) :
    nextKey first (skipBlanks (gap ++ (separator first ++ (before ++ '"' :: text)))) = .ok text := by
  rw [skipBlanks_of_blank hgap]
  cases first with
  | true =>
    rw [separator, if_pos rfl, List.nil_append, skipBlanks_of_blank hbefore, skipBlanks_cons (by decide)]
    rfl
  | false =>
    rw [separator, if_neg (by decide), List.singleton_append, skipBlanks_cons (by decide), nextKey,
      skipBlanks_of_blank hbefore, skipBlanks_cons (by decide)]
    rfl

/-- Blanks before a colon are skipped. -/
theorem readColon_of_blank {gap : List Char} (h : Blank gap) : readColon (gap ++ ':' :: text) = .ok text := by
  rw [readColon, skipBlanks_of_blank h, skipBlanks_cons (by decide)]
  rfl

/-- The next member of an object is read or skipped. -/
theorem readMembers_entry {gap before : List Char} (hgap : Blank gap) (hbefore : Blank before)
    (h : Entry (schema.fields.map (·.name)) now text)
    (htaken : ∀ m ∈ now, ∃ field, (schema.fields.find? fun f => f.name == m.1) = some field ∧ field.kind.Takes m.2)
    (hnew : ∀ m ∈ now, m.1 ∉ done.map Prod.fst) (hrest : Ends rest) :
    readMembers schema done first (gap ++ (separator first ++ (before ++ (text ++ rest)))) =
      readMembers schema (done ++ now) false rest := by
  cases h with
  | @known name d key gap' space value spelled known blank blankAfter written =>
    obtain ⟨field, hfield, htakes⟩ := htaken _ List.mem_cons_self
    have hnone := lookup_eq_none (hnew _ List.mem_cons_self)
    simp only [List.cons_append, List.append_assoc]
    refine readMembers_step (nextKey_of_entry hgap hbefore) (readText_of_spells spelled _) ?_
    rw [String.ofList_toList, readMember, hfield]
    simp [hnone, readColon_of_blank blank, readDatum_of_blank blankAfter, readDatum_of_written htakes written hrest]
  | @unknown name key gap' space value spelled unknown blank blankAfter form =>
    have hfield : (schema.fields.find? fun f => f.name == name) = none := by
      rw [List.find?_eq_none]
      rintro f hf heq
      exact unknown (beq_iff_eq.mp heq ▸ List.mem_map_of_mem hf)
    simp only [List.cons_append, List.append_assoc]
    refine readMembers_step (nextKey_of_entry hgap hbefore) (readText_of_spells spelled _) ?_
    rw [String.ofList_toList, readMember, hfield, List.append_nil]
    simp [readColon_of_blank blank, skipValue_of_form form blankAfter hrest]

/-- The end of an object is read. -/
theorem readMembers_close {gap : List Char} (hgap : Blank gap) (rest : List Char) :
    readMembers schema done first (gap ++ '\x7d' :: rest) = closeObject schema done rest := by
  have hskip : skipBlanks (gap ++ '\x7d' :: rest) = '\x7d' :: rest := by
    rw [skipBlanks_of_blank hgap, skipBlanks_cons (by decide)]
  rw [readMembers]
  split
  · rename_i heq
    rw [hskip] at heq
    cases heq
    rfl
  · rename_i hbrace
    exact (hbrace rest hskip).elim

/-- The members of what is left of an object are read in their order, if they and those before have different names. -/
theorem readMembers_of_remainder (h : Remainder (schema.fields.map (·.name)) first members text) (rest : List Char)
    (htaken : ∀ m ∈ members, ∃ field, (schema.fields.find? fun f => f.name == m.1) = some field ∧ field.kind.Takes m.2)
    (hnodup : ((done ++ members).map Prod.fst).Nodup) :
    readMembers schema done first (text ++ rest) = closeObject schema (done ++ members) rest := by
  induction h generalizing done with
  | close blank => rw [List.append_assoc, List.singleton_append, List.append_nil, readMembers_close blank]
  | @entry first now later gap before text _ blank blankBefore entry remainder ih =>
    obtain ⟨hnow, hlater⟩ := List.forall_mem_append.mp htaken
    have hnew : ∀ m ∈ now, m.1 ∉ done.map Prod.fst := by
      intro m hm hdone
      rw [List.map_append, List.nodup_append, List.map_append] at hnodup
      exact hnodup.2.2 _ hdone m.1 (List.mem_append_left _ (List.mem_map_of_mem hm)) rfl
    simp only [List.append_assoc]
    rw [readMembers_entry blank blankBefore entry hnow hnew (remainder.ends rest),
      ih hlater (by rwa [List.append_assoc]), List.append_assoc]

/-! ## Records -/

/-- An object that has all mandatory fields is closed. -/
theorem closeObject_of_complete (h : ∀ f ∈ schema.fields, f.mandatory → (done.lookup f.name).isSome)
    (rest : List Char) : closeObject schema done rest = .ok (done, rest) := by
  have hnone : (schema.fields.find? fun f => f.mandatory && (done.lookup f.name).isNone) = none := by
    rw [List.find?_eq_none]
    intro f hf hmissing
    rw [Bool.and_eq_true] at hmissing
    obtain ⟨d, hd⟩ := Option.isSome_iff_exists.mp (h f hf hmissing.1)
    rw [hd] at hmissing
    exact nomatch hmissing.2
  rw [closeObject, hnone]

/-- Members that fit a schema are read from every text that holds them, in the order in which it does. -/
theorem readRecord_of_holds (h : Holds (schema.fields.map (·.name)) members text) (hfits : schema.Fits members) :
    readRecord schema text = .ok members := by
  cases h with
  | @object gap body tail blank remainder blankAfter =>
    have hnodup : (([] ++ members).map Prod.fst).Nodup := hfits.nodup
    have hbody := readMembers_of_remainder remainder tail hfits.taken hnodup
    rw [List.nil_append, closeObject_of_complete hfits.complete] at hbody
    have hend : skipBlanks tail = [] := by
      rw [← List.append_nil tail, skipBlanks_of_blank blankAfter]
      rfl
    rw [readRecord, skipBlanks_of_blank blank, skipBlanks_cons (by decide)]
    simp only [hbody, hend]

/-- If no two members have one name, their order makes no difference to what is looked up. -/
theorem lookup_perm {others : Members} (h : members.Perm others) (hnodup : (members.map Prod.fst).Nodup) (name : String) :
    members.lookup name = others.lookup name := by
  induction h with
  | nil => rfl
  | cons m _ ih =>
    rw [List.lookup_cons, List.lookup_cons, ih (List.nodup_cons.mp hnodup).2]
  | swap m m' members =>
    have hne : m'.1 ≠ m.1 := fun heq => (List.nodup_cons.mp hnodup).1 (heq ▸ List.mem_cons_self)
    rw [List.lookup_cons, List.lookup_cons, List.lookup_cons, List.lookup_cons]
    by_cases hm : name = m.1
    · rw [hm, beq_false_of_ne hne.symm]
    · rw [beq_false_of_ne hm]
  | trans hfirst _ ih ih' => exact (ih hnodup).trans (ih' ((hfirst.map Prod.fst).nodup_iff.mp hnodup))

/-- In another order members fit a schema as well. -/
theorem Schema.Fits.perm {others : Members} (h : schema.Fits members) (hperm : members.Perm others) :
    schema.Fits others where
  taken m hm := h.taken m (hperm.mem_iff.mpr hm)
  nodup := (hperm.map Prod.fst).nodup_iff.mp h.nodup
  complete f hf hmandatory := by
    rw [← lookup_perm hperm h.nodup]
    exact h.complete f hf hmandatory

end

end EnvelopeLog.Json
