import EnvelopeLog.Proofs.KeyBlob.Export

/-!
# One text for each number

A text of a number is the written form of bytes, with white space around it or without (`Encodes`), and each text is that of one
byte string. Numbers are written in their shortest form, so what is read and written again comes back, white space aside, exactly
if no byte of it was superfluous (`writeNumber_eq_iff`), and texts of one number differ only in white space around them and in
zeros in front (`readNumber_canonical`).
-/

namespace EnvelopeLog

/-- What is left of a text when white space at its ends is taken off. -/
theorem Text.exists_trim (cs : List Char) :
    ∃ before after, (∀ c ∈ before, isBlank c) ∧ (∀ c ∈ after, isBlank c) ∧ cs = before ++ (trim cs ++ after) := by
  have htake (l : List Char) : ∀ c ∈ l.takeWhile isBlank, isBlank c := fun c hc =>
    List.all_eq_true.mp List.all_takeWhile c hc
  refine ⟨cs.takeWhile isBlank, ((cs.dropWhile isBlank).reverse.takeWhile isBlank).reverse, htake cs, ?_, ?_⟩
  · intro c hc
    exact htake _ c (List.mem_reverse.mp hc)
  · rw [trim, ← List.reverse_append, List.takeWhile_append_dropWhile, List.reverse_reverse,
      List.takeWhile_append_dropWhile]

/-- Texts of one encoding are the same. -/
theorem Bytes.ofText_inj {s t : String} : ofText s = ofText t ↔ s = t := by
  constructor
  · intro h
    have hread := text?_ofText s
    rw [h, text?_ofText] at hread
    exact (Option.some.inj hread).symm
  · intro h
    rw [h]

/-- Byte strings of one written form are the same. -/
theorem Base64.text_inj {b c : Bytes} : text b = text c ↔ b = c := by
  constructor
  · intro h
    have hencode : encode b = encode c := by rw [← ofText_text, h, ofText_text]
    have hread : decode (encode b) = .ok c := decode_eq_ok_iff.mpr hencode
    rw [decode_eq_ok_iff.mpr rfl] at hread
    exact Except.ok.inj hread
  · intro h
    rw [h]

namespace KeyBlob

/-- Whether a text is the written form of a byte string, with white space around it or without. -/
def Encodes (value : String) (b : Bytes) : Prop :=
  ∃ before after, (∀ c ∈ before, Text.isBlank c) ∧ (∀ c ∈ after, Text.isBlank c) ∧
    value.toList = before ++ ((Base64.text b).toList ++ after)

section

variable {value : String} {b c : Bytes} {n : Nat}

/-- A string encodes bytes exactly if it is their encoding with blanks around it. -/
theorem encodes_iff : Encodes value b ↔ String.ofList (Text.trim value.toList) = Base64.text b := by
  constructor
  · rintro ⟨before, after, hbefore, hafter, hvalue⟩
    rw [hvalue, Text.trim_surrounded hbefore hafter (Base64.text_not_blank b), String.ofList_toList]
  · intro h
    obtain ⟨before, after, hbefore, hafter, hvalue⟩ := Text.exists_trim value.toList
    refine ⟨before, after, hbefore, hafter, ?_⟩
    rw [← h, String.toList_ofList]
    exact hvalue

/-- A text is that of one byte string only. -/
theorem Encodes.unique (hb : Encodes value b) (hc : Encodes value c) : b = c :=
  Base64.text_inj.mp ((encodes_iff.mp hb).symm.trans (encodes_iff.mp hc))

/-- The texts that show a number are those of its bytes, at least one. -/
theorem shows_iff : Shows value n ↔ ∃ b, b ≠ [] ∧ Encodes value b ∧ Bytes.fromBigEndian b = n := by
  have hwritten (b : Bytes) :
      Bytes.ofText (String.ofList (Text.trim value.toList)) = Base64.encode b ↔ Encodes value b := by
    rw [← Base64.ofText_text, Bytes.ofText_inj, encodes_iff]
  simp only [Shows, hwritten]

/-- The number that a string shows is that of the bytes that it encodes. -/
theorem Shows.fromBigEndian (hn : Shows value n) (hb : Encodes value b) : Bytes.fromBigEndian b = n := by
  obtain ⟨c, -, hc, rfl⟩ := shows_iff.mp hn
  rw [hb.unique hc]

/-- A number is written as the bytes that it was read from exactly if none of them is superfluous. -/
theorem writeNumber_eq_iff (hn : Shows value n) (hb : Encodes value b) :
    writeNumber n = String.ofList (Text.trim value.toList) ↔ Bytes.Shortest b := by
  rw [encodes_iff.mp hb, ← hn.fromBigEndian hb, ← Bytes.minimal_fromBigEndian_iff]
  exact Base64.text_inj

end

/-- Every number is read from its text. The texts that are read are the written forms of bytes, at least one, with white space
around them or without. Such a text, without the white space, is the text of the number that is read from it exactly if no zero
in front of the bytes is superfluous. Two of them show one number exactly if their bytes differ in zeros in front at most. -/
theorem readNumber_canonical (field : String) :
    (∀ n, readNumber field (writeNumber n) = .ok n) ∧
    (∀ value n, readNumber field value = .ok n ↔ ∃ b, b ≠ [] ∧ Encodes value b ∧ Bytes.fromBigEndian b = n) ∧
    (∀ value n b, readNumber field value = .ok n → Encodes value b →
      (writeNumber n = String.ofList (Text.trim value.toList) ↔ Bytes.Shortest b)) ∧
    ∀ value other m n b c, readNumber field value = .ok m → readNumber field other = .ok n →
      Encodes value b → Encodes other c → (m = n ↔ Bytes.significant b = Bytes.significant c) := by
  refine ⟨fun n => readNumber_eq_ok_iff.mpr (shows_writeNumber n), fun value n => readNumber_eq_ok_iff.trans shows_iff,
    fun value n b hn hb => writeNumber_eq_iff (readNumber_eq_ok_iff.mp hn) hb, ?_⟩
  intro value other m n b c hm hn hb hc
  have hb' := (readNumber_eq_ok_iff.mp hm).fromBigEndian hb
  have hc' := (readNumber_eq_ok_iff.mp hn).fromBigEndian hc
  rw [← hb', ← hc']
  exact Bytes.fromBigEndian_eq_iff

/-- The number one in two bytes, with white space around its text, and in one byte. -/
theorem readNumber_canonical_sample :
    readNumber "DP" "\tAAE= \n" = .ok 1 ∧ readNumber "DP" "AQ==" = .ok 1 ∧
      writeNumber 1 = String.ofList (Text.trim "AQ==".toList) ∧
      writeNumber 1 ≠ String.ofList (Text.trim "\tAAE= \n".toList) ∧
      Bytes.significant [0, 1] = Bytes.significant [1] := by
  obtain ⟨-, hread, hwrite, hsame⟩ := readNumber_canonical "DP"
  have hlong : Encodes "\tAAE= \n" [0, 1] :=
    ⟨['\t'], [' ', '\n'], by simp [Text.isBlank], by simp [Text.isBlank], by decide⟩
  have hshort : Encodes "AQ==" [1] := ⟨[], [], nofun, nofun, rfl⟩
  have hlongRead := (hread "\tAAE= \n" 1).mpr ⟨[0, 1], List.cons_ne_nil _ _, hlong, rfl⟩
  have hshortRead := (hread "AQ==" 1).mpr ⟨[1], List.cons_ne_nil _ _, hshort, rfl⟩
  refine ⟨hlongRead, hshortRead, (hwrite _ 1 [1] hshortRead hshort).mpr fun h => absurd h (by decide), ?_,
    (hsame _ _ 1 1 [0, 1] [1] hlongRead hshortRead hlong hshort).mp rfl⟩
  intro hwritten
  exact absurd ((hwrite _ 1 [0, 1] hlongRead hlong).mp hwritten rfl) (List.cons_ne_nil _ _)

end KeyBlob

end EnvelopeLog
