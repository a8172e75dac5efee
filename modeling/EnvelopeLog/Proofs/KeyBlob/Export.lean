import EnvelopeLog.Proofs.Json.Printer
import EnvelopeLog.Proofs.KeyBlob
import EnvelopeLog.Proofs.Wrapping

/-!
# Exported keys

The text of a blob holds the blob, whatever texts the blob is made of (`parse_render`), and its numbers are written in base 64
characters that a reader of numbers gives back. So whoever reads the text of a key has the key (`export_lossless`).
-/

namespace EnvelopeLog

namespace KeyBlob

/-! ## Blobs as texts -/

theorem lookup_optional (key name : String) (value : Option String) :
    (optional name value).lookup key = if key = name then value.map .text else none := by
  cases value with
  | none => simp [optional]
  | some s =>
    rw [optional, List.lookup_cons]
    by_cases h : key = name
    · rw [if_pos h, h, beq_self_eq_true]
      rfl
    · rw [if_neg h, beq_false_of_ne h]
      rfl

theorem optional_names (name : String) (value : Option String) : ((optional name value).map Prod.fst).Sublist [name] := by
  cases value with
  | none => exact List.nil_sublist _
  | some s => exact List.Sublist.refl _

/-- The names of the fields, in their order. -/
def names : List String := schema.fields.map (·.name)

/-- The members of a blob are among the fields of the schema, in their order. -/
theorem members_names (b : KeyBlob) : (b.members.map Prod.fst).Sublist names := by
  simp only [members, List.map_append]
  exact ((((((List.Sublist.refl _).append (optional_names _ _)).append (optional_names _ _)).append
    (optional_names _ _)).append (optional_names _ _)).append (optional_names _ _)).append (optional_names _ _)

/-- A mandatory member is one that may be missing and is there. -/
theorem members_eq (b : KeyBlob) : b.members =
    optional "Modulus" (some b.modulus) ++ (optional "Exponent" (some b.exponent) ++ (optional "P" b.p ++
      (optional "Q" b.q ++ (optional "DP" b.dp ++ (optional "DQ" b.dq ++ (optional "InverseQ" b.inverseQ ++
        optional "D" b.d)))))) := by
  simp [members, optional]

/-- A blob is what its members make. -/
theorem ofMembers_members (b : KeyBlob) : ofMembers b.members = b := by
  have htext (name : String) (value : Option String) (h : b.members.lookup name = value.map .text) :
      text? b.members name = value := by
    rw [text?, h]
    cases value <;> rfl
  have hlookup (name : String) := congrArg (List.lookup name) (members_eq b)
  simp only [List.lookup_append, lookup_optional] at hlookup
  rw [ofMembers, htext "Modulus" (some b.modulus) (by simp [hlookup]), htext "Exponent" (some b.exponent) (by simp [hlookup]),
    htext "P" b.p (by simp [hlookup]), htext "Q" b.q (by simp [hlookup]), htext "DP" b.dp (by simp [hlookup]),
    htext "DQ" b.dq (by simp [hlookup]), htext "InverseQ" b.inverseQ (by simp [hlookup]), htext "D" b.d (by simp [hlookup])]
  rfl

/-- A text fits every field of the schema. -/
theorem takes_text {m : String × Json.Datum} {name : String} {value : Option String} (hname : name ∈ names)
    (hm : m ∈ optional name value) :
    ∃ field, (schema.fields.find? fun f => f.name == m.1) = some field ∧ field.kind.Takes m.2 := by
  have hkinds : ∀ n ∈ names, ∃ field, (schema.fields.find? fun f => f.name == n) = some field ∧
      (field.kind = .text ∨ field.kind = .optionalText) := by
    simp only [names, schema, List.map_cons, List.map_nil, List.forall_mem_cons]
    simp
  obtain ⟨field, hfield, hkind⟩ := hkinds name hname
  cases value with
  | none => cases hm
  | some s =>
    obtain rfl := List.mem_singleton.mp hm
    refine ⟨field, hfield, ?_⟩
    rcases hkind with hkind | hkind <;> rw [hkind] <;> exact trivial

/-- The members of a blob are what its form asks for. -/
theorem fits_members (b : KeyBlob) : schema.Fits b.members := by
  refine ⟨fun m hm => ?_, (members_names b).nodup (by decide), fun f hf hmandatory => ?_⟩
  · rw [members_eq] at hm
    simp only [List.mem_append] at hm
    rcases hm with hm | hm | hm | hm | hm | hm | hm | hm <;> exact takes_text (by decide) hm
  · have hname : f.name = "Modulus" ∨ f.name = "Exponent" := by
      revert f
      decide
    rcases hname with hname | hname <;> simp [hname, members_eq, List.lookup_append, lookup_optional]

/-- The text of a blob holds the blob. -/
theorem parse_render (b : KeyBlob) : parse b.render = .ok b := by
  rw [parse, render, Json.parseRecord_pretty (fits_members b), Except.map, ofMembers_members]

/-! ## Numbers as texts -/

end KeyBlob

namespace Base64

/-- The symbols are printable, so none of them is a blank. -/
theorem symbol_printable (n : Nat) : 33 ≤ (symbol n).toNat ∧ (symbol n).toNat < 127 := by
  unfold symbol
  split
  · rw [UInt8.toNat_ofNat']
    omega
  split
  · rw [UInt8.toNat_ofNat']
    omega
  split
  · rw [UInt8.toNat_ofNat']
    omega
  split <;> decide

/-- A written form has visible symbols of one byte. -/
theorem encode_printable (b : Bytes) : ∀ x ∈ encode b, 33 ≤ x.toNat ∧ x.toNat < 127 := by
  have hpadding : 33 ≤ padding.toNat ∧ padding.toNat < 127 := by decide
  induction b using encode.induct with
  | case1 a b c rest ih =>
    simp only [encode, List.forall_mem_cons]
    exact ⟨symbol_printable _, symbol_printable _, symbol_printable _, symbol_printable _, ih⟩
  | case2 a b => simp only [encode, List.forall_mem_cons, symbol_printable, hpadding]; simp
  | case3 a => simp only [encode, List.forall_mem_cons, symbol_printable, hpadding]; simp
  | case4 => simp [encode]

end Base64

/-- Bytes below 128 are the encoding of the text of their characters. -/
theorem Bytes.ofText_ascii {b : Bytes} (h : ∀ x ∈ b, x.toNat < 128) :
    Bytes.ofText (String.ofList (b.map fun x => Char.ofNat x.toNat)) = b := by
  have hall : ∀ n < 128, String.utf8EncodeChar (Char.ofNat n) = [UInt8.ofNat n] := by
    intro n hn
    have hvalid : n.isValidChar := .inl (by omega)
    have hcode : (Char.ofNat n).val.toNat = n := by
      rw [Char.ofNat, dif_pos hvalid]
      rfl
    rw [String.utf8EncodeChar, hcode, if_pos (by omega)]
  have hchars : (b.map fun x => Char.ofNat x.toNat).flatMap String.utf8EncodeChar = b := by
    induction b with
    | nil => rfl
    | cons x b ih =>
      obtain ⟨hx, hb⟩ := List.forall_mem_cons.mp h
      rw [List.map_cons, List.flatMap_cons, ih hb, hall x.toNat hx, UInt8.ofNat_toNat, List.singleton_append]
  rw [Bytes.ofText, String.toByteArray_ofList, List.utf8Encode, hchars, List.data_toByteArray]

/-- White space in front of a text without any, and in front of nothing, is dropped. -/
theorem Text.dropWhile_surrounded {gap text more : List Char} (hgap : ∀ c ∈ gap, isBlank c)
    (htext : ∀ c ∈ text, isBlank c = false) (hmore : text = [] → more = []) :
    (gap ++ (text ++ more)).dropWhile isBlank = text ++ more := by
  rw [List.dropWhile_append_of_pos hgap]
  cases text with
  | nil => rw [hmore rfl]; rfl
  | cons c text => rw [List.cons_append, List.dropWhile_cons, htext c List.mem_cons_self]; rfl

/-- White space around a text without any is trimmed off. -/
theorem Text.trim_surrounded {before core after : List Char} (hbefore : ∀ c ∈ before, isBlank c)
    (hafter : ∀ c ∈ after, isBlank c) (hcore : ∀ c ∈ core, isBlank c = false) : trim (before ++ (core ++ after)) = core := by
  by_cases hempty : core = []
  · have hblank : ∀ c ∈ before ++ after, isBlank c := List.forall_mem_append.mpr ⟨hbefore, hafter⟩
    have hnothing : (before ++ after).dropWhile isBlank = [] := by
      rw [← List.append_nil (before ++ after), List.dropWhile_append_of_pos hblank]
      rfl
    rw [hempty, List.nil_append, trim, hnothing]
    rfl
  · have hafter' : ∀ c ∈ after.reverse, isBlank c := fun c hc => hafter c (List.mem_reverse.mp hc)
    have hcore' : ∀ c ∈ core.reverse, isBlank c = false := fun c hc => hcore c (List.mem_reverse.mp hc)
    have hback := dropWhile_surrounded hafter' hcore' fun _ => rfl
    rw [List.append_nil] at hback
    rw [trim, dropWhile_surrounded hbefore hcore fun h => absurd h hempty, List.reverse_append, hback, List.reverse_reverse]

namespace Base64

/-- The written form of a byte string as a text. -/
def text (b : Bytes) : String := String.ofList ((encode b).map fun x => Char.ofNat x.toNat)

/-- The text of an encoding is made of its bytes. -/
theorem ofText_text (b : Bytes) : Bytes.ofText (text b) = encode b :=
  Bytes.ofText_ascii fun x hx => (encode_printable b x hx).2.trans (by decide)

/-- A written form has no white space. -/
theorem text_not_blank (b : Bytes) : ∀ c ∈ (text b).toList, Text.isBlank c = false := by
  intro c hc
  rw [text, String.toList_ofList, List.mem_map] at hc
  obtain ⟨x, hx, rfl⟩ := hc
  obtain ⟨hlow, hhigh⟩ := encode_printable b x hx
  have hvisible : ∀ v < 127, 33 ≤ v → Text.isBlank (Char.ofNat v) = false := by decide
  exact hvisible x.toNat hhigh hlow

end Base64

namespace KeyBlob

/-- The text of a number shows the number. -/
theorem shows_writeNumber (n : Nat) : Shows (writeNumber n) n := by
  have htrim : Text.trim (writeNumber n).toList = (writeNumber n).toList := by
    have hnone : ∀ c ∈ [], Text.isBlank c := List.forall_mem_nil _
    have hsurrounded := Text.trim_surrounded hnone hnone (Base64.text_not_blank (Bytes.minimal n))
    rwa [List.nil_append, List.append_nil] at hsurrounded
  refine ⟨Bytes.minimal n, ?_, ?_, ?_⟩
  · have hlength : (Bytes.minimal n).length = n.log2 / 8 + 1 := Bytes.bigEndian_length _ _
    exact List.ne_nil_of_length_pos (by omega)
  · rw [htrim, String.ofList_toList]
    exact Base64.ofText_text (Bytes.minimal n)
  · exact Bytes.fromBigEndian_bigEndian (Bytes.lt_pow_widthOf n)

/-! ## Keys as blobs -/

/-- What a blob shows is examined, and is the public key if it stands up to that. -/
theorem toPublicKey_of_shows {b : KeyBlob} {k : Rsa.PublicKey} (hn : Shows b.modulus k.modulus)
    (he : Shows b.exponent k.exponent) :
    b.toPublicKey = ((k.check (some Settings.maxKeyBits)).mapError .publicRefused).map fun _ => k := by
  rw [toPublicKey, readNumber_eq_ok_iff.mpr hn, readNumber_eq_ok_iff.mpr he]
  simp only [bind, Except.bind]
  cases k.check (some Settings.maxKeyBits) <;> rfl

/-- A blob gives a public key exactly if it shows its numbers and the key stands up to examination. -/
theorem toPublicKey_eq_ok_iff {b : KeyBlob} {k : Rsa.PublicKey} :
    b.toPublicKey = .ok k ↔ Shows b.modulus k.modulus ∧ Shows b.exponent k.exponent ∧
      k.check (some Settings.maxKeyBits) = .ok () := by
  constructor
  · intro h
    unfold toPublicKey at h
    obtain ⟨n, hn, h⟩ := bind_eq_ok.mp h
    obtain ⟨e, he, h⟩ := bind_eq_ok.mp h
    dsimp only at h
    split at h
    · cases h
    · rename_i hcheck
      cases h
      exact ⟨readNumber_eq_ok_iff.mp hn, readNumber_eq_ok_iff.mp he, hcheck⟩
  · rintro ⟨hn, he, hcheck⟩
    rw [toPublicKey_of_shows hn he, hcheck]
    rfl

/-- The blob of a private key shows its numbers and all that are derived from them. -/
theorem ofPrivateKey_of_consistent {n e d p q : Nat} (h : Rsa.Consistent n e d p q) :
    ∃ b, ofPrivateKey { modulus := n, exponent := e, privateExponent := d, primes := [p, q] } = .ok b ∧
      b.Holds n e d p q ∧ b.members.map Prod.fst = names := by
  obtain ⟨i, hbelow, hinverse⟩ := h.exists_inverse
  obtain ⟨-, hshortcut⟩ := Rsa.ofComponents_shortcut_iff.mpr ⟨h, rfl, i, hbelow, hinverse, rfl⟩
  refine ⟨_, by rw [ofPrivateKey, hshortcut], ?_, rfl⟩
  have hshown (m : Nat) : ∃ s, some (writeNumber m) = some s ∧ Shows s m := ⟨_, rfl, shows_writeNumber m⟩
  have hderived (m : Nat) : ∀ s ∈ some (writeNumber m), Shows s m := by
    rintro s ⟨⟩
    exact shows_writeNumber m
  exact ⟨shows_writeNumber n, shows_writeNumber e, hshown d, hshown p, hshown q, hderived _, hderived _,
    fun s hs => ⟨i, hderived i s hs, hbelow, hinverse⟩⟩

end KeyBlob

namespace Rsa

/-- A private key is read exactly of the text of a blob that makes one. -/
theorem PrivateKey.ofText_eq_ok_iff {text : String} {k : PrivateKey} :
    ofText text = .ok k ↔ ∃ b, KeyBlob.parse text = .ok b ∧ ofBlob b = .ok k := by
  rw [ofText]
  cases KeyBlob.parse text <;> simp

/-- A public key is read exactly of the text of a blob that makes one. -/
theorem PublicKey.ofText_eq_ok_iff {text : String} {k : PublicKey} :
    ofText text = .ok k ↔ ∃ b, KeyBlob.parse text = .ok b ∧ b.toPublicKey = .ok k := by
  rw [ofText]
  cases KeyBlob.parse text with
  | error _ => simp
  | ok b => cases h : b.toPublicKey <;> simp [h]

/-- The text of a key is that of its blob. -/
theorem PrivateKey.toText_of_blob {k : PrivateKey} {b : KeyBlob} (h : KeyBlob.ofPrivateKey k = .ok b) :
    k.toText = .ok b.render := by
  rw [toText, h]

/-- A key of numbers that belong together is written and read back. -/
theorem PrivateKey.ofText_toText {n e d p q : Nat} (h : Consistent n e d p q) :
    ∃ b : KeyBlob, b.members.map Prod.fst = KeyBlob.names ∧
      toText { modulus := n, exponent := e, privateExponent := d, primes := [p, q] } = .ok b.render ∧
      ofText b.render = .ok { modulus := n, exponent := e, privateExponent := d, primes := [p, q] } := by
  obtain ⟨b, hb, hholds, hnames⟩ := KeyBlob.ofPrivateKey_of_consistent h
  refine ⟨b, hnames, toText_of_blob hb, ofText_eq_ok_iff.mpr ⟨b, KeyBlob.parse_render b, ?_⟩⟩
  exact ofBlob_eq_ok_iff_holds.mpr ⟨n, e, d, p, q, hholds, h, rfl⟩

/-- The public half of a consistent key is a proper one. -/
theorem Consistent.proper {n e d p q : Nat} (h : Consistent n e d p q) :
    PublicKey.Proper { modulus := n, exponent := e } :=
  ⟨h.modulus_odd, h.exponent_lt, h.exponent_odd, h.three_le, h.exponent_le⟩

/-- A text that holds a private key shows its public half, which is proper. -/
theorem PrivateKey.shows_of_ofText {text : String} {k : PrivateKey} (h : ofText text = .ok k) :
    ∃ b, KeyBlob.parse text = .ok b ∧ KeyBlob.Shows b.modulus k.modulus ∧ KeyBlob.Shows b.exponent k.exponent ∧
      k.toPublicKey.Proper := by
  obtain ⟨b, hparse, hb⟩ := ofText_eq_ok_iff.mp h
  obtain ⟨n, e, d, p, q, hholds, hconsistent, rfl⟩ := ofBlob_eq_ok_iff_holds.mp hb
  exact ⟨b, hparse, hholds.shows_n, hholds.shows_e, hconsistent.proper⟩

/-- A public key that stands up to examination is written and read back. -/
theorem PublicKey.ofText_toText {k : PublicKey} (h : k.check (some Settings.maxKeyBits) = .ok ()) :
    ofText k.toText = .ok k :=
  ofText_eq_ok_iff.mpr ⟨KeyBlob.ofPublicKey k, KeyBlob.parse_render _, KeyBlob.toPublicKey_eq_ok_iff.mpr
    ⟨KeyBlob.shows_writeNumber k.modulus, KeyBlob.shows_writeNumber k.exponent, h⟩⟩

end Rsa

/-! ## What is exported -/

/-- The text of a key that a text holds, private or public, has the members of such a key and no others, holds the key, and
is the text that the key it holds has. -/
theorem KeyBlob.export_lossless (text : String) :
    (∀ k, Rsa.PrivateKey.ofText text = .ok k →
      ∃ exported members, k.toText = .ok exported ∧ exported = Json.pretty members ∧
        members.map Prod.fst = ["Modulus", "Exponent", "P", "Q", "DP", "DQ", "InverseQ", "D"] ∧
        Rsa.PrivateKey.ofText exported = .ok k ∧ (Rsa.PrivateKey.ofText exported).bind (·.toText) = .ok exported) ∧
    ∀ k, Rsa.PublicKey.ofText text = .ok k →
      ∃ members, k.toText = Json.pretty members ∧ members.map Prod.fst = ["Modulus", "Exponent"] ∧
        Rsa.PublicKey.ofText k.toText = .ok k ∧ (Rsa.PublicKey.ofText k.toText).map (·.toText) = .ok k.toText := by
  constructor
  · intro k hk
    obtain ⟨b, -, hb⟩ := Rsa.PrivateKey.ofText_eq_ok_iff.mp hk
    obtain ⟨n, e, d, p, q, -, hconsistent, rfl⟩ := Rsa.PrivateKey.ofBlob_eq_ok_iff_holds.mp hb
    obtain ⟨c, hnames, hexport, himport⟩ := Rsa.PrivateKey.ofText_toText hconsistent
    refine ⟨c.render, c.members, hexport, rfl, hnames, himport, ?_⟩
    rw [himport]
    exact hexport
  · intro k hk
    obtain ⟨b, -, hb⟩ := Rsa.PublicKey.ofText_eq_ok_iff.mp hk
    have himport := Rsa.PublicKey.ofText_toText (KeyBlob.toPublicKey_eq_ok_iff.mp hb).2.2
    refine ⟨(KeyBlob.ofPublicKey k).members, rfl, rfl, himport, ?_⟩
    rw [himport]
    rfl

/-- A private key and its public half, from a text with five members. -/
theorem KeyBlob.export_lossless_sample :
    Rsa.PrivateKey.ofText Sample.text = .ok Sample.key ∧
      (∃ exported, Sample.key.toText = .ok exported ∧ Rsa.PrivateKey.ofText exported = .ok Sample.key) ∧
      Rsa.PublicKey.ofText Sample.text = .ok Sample.key.toPublicKey ∧
      Rsa.PublicKey.ofText Sample.key.toPublicKey.toText = .ok Sample.key.toPublicKey := by
  obtain ⟨hprivate, hpublic⟩ := KeyBlob.export_lossless Sample.text
  obtain ⟨exported, members, hexport, -, -, himport, -⟩ := hprivate Sample.key Sample.ofText_text
  have hkey : Rsa.PublicKey.ofText Sample.text = .ok Sample.key.toPublicKey := by
    obtain ⟨b, hparse, hn, he, hproper⟩ := Rsa.PrivateKey.shows_of_ofText Sample.ofText_text
    have hcheck : Sample.key.toPublicKey.check (some Settings.maxKeyBits) = .ok () :=
      Rsa.PublicKey.check_eq_ok_iff.mpr ⟨by rintro _ ⟨⟩; exact Sample.bitLength_key_le, hproper⟩
    exact Rsa.PublicKey.ofText_eq_ok_iff.mpr ⟨b, hparse, toPublicKey_eq_ok_iff.mpr ⟨hn, he, hcheck⟩⟩
  obtain ⟨members, -, -, hagain, -⟩ := hpublic Sample.key.toPublicKey hkey
  exact ⟨Sample.ofText_text, ⟨exported, hexport, himport⟩, hkey, hagain⟩

end EnvelopeLog
