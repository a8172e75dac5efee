import EnvelopeLog.Text.Base64
import Mathlib.Tactic.Common

/-!
# Base 64 is read exactly as it is written

Every byte string has one written form, and only written forms are read (`decode_eq_ok_iff`): the alphabet, the padding and
the bits of the last symbol that no byte needs leave no second spelling.
-/

namespace EnvelopeLog.Base64

/-! ## Symbols -/

/-- The number of a symbol is below 64, and the symbol is that of its number. -/
theorem value?_eq_some_iff {b : UInt8} {v : Nat} : value? b = some v ↔ v < 64 ∧ symbol v = b := by
  constructor
  · have hall : ∀ n < 256, ∀ v ∈ value? (UInt8.ofNat n), v < 64 ∧ symbol v = UInt8.ofNat n := by decide +kernel
    have hb := hall b.toNat b.toNat_lt
    rw [UInt8.ofNat_toNat] at hb
    exact hb v
  · rintro ⟨hv, rfl⟩
    revert v
    decide

/-- Exactly the symbols of the 64 values are read. -/
theorem readSymbol_eq_ok_iff {offset v : Nat} {b : UInt8} : readSymbol offset b = .ok v ↔ v < 64 ∧ symbol v = b := by
  rw [← value?_eq_some_iff, readSymbol]
  cases value? b <;> simp

theorem readSymbol_symbol {v : Nat} (h : v < 64) (offset : Nat) : readSymbol offset (symbol v) = .ok v :=
  readSymbol_eq_ok_iff.mpr ⟨h, rfl⟩

/-- No number has the padding as its symbol. -/
theorem symbol_ne_padding {v : Nat} (h : v < 64) : symbol v ≠ padding := by
  revert v
  decide

/-! ## Groups -/

theorem join_three {n : Nat} (h : n < 16777216) : n / 65536 % 256 * 65536 + n / 256 % 256 * 256 + n % 256 = n := by
  have hhigh : n / 65536 % 256 = n / 65536 := by omega
  rw [hhigh]
  omega

theorem join_two {n : Nat} (h : n < 262144) (hbits : n % 4 = 0) : n / 4 / 256 % 256 * 1024 + n / 4 % 256 * 4 = n := by
  omega

/-- Four symbols hold three bytes. -/
theorem encode_three {v₁ v₂ v₃ v₄ : Nat} (h₁ : v₁ < 64) (h₂ : v₂ < 64) (h₃ : v₃ < 64) (h₄ : v₄ < 64) (rest : Bytes) :
    encode (UInt8.ofNat ((v₁ * 262144 + v₂ * 4096 + v₃ * 64 + v₄) / 65536) ::
      UInt8.ofNat ((v₁ * 262144 + v₂ * 4096 + v₃ * 64 + v₄) / 256) ::
      UInt8.ofNat (v₁ * 262144 + v₂ * 4096 + v₃ * 64 + v₄) :: rest) =
      symbol v₁ :: symbol v₂ :: symbol v₃ :: symbol v₄ :: encode rest := by
  generalize hn : v₁ * 262144 + v₂ * 4096 + v₃ * 64 + v₄ = n
  have hjoin := join_three (n := n) (by omega)
  have hv₁ : n / 262144 = v₁ := by omega
  have hv₂ : n / 4096 % 64 = v₂ := by omega
  have hv₃ : n / 64 % 64 = v₃ := by omega
  have hv₄ : n % 64 = v₄ := by omega
  simp only [encode, UInt8.toNat_ofNat', Nat.reducePow, hjoin, hv₁, hv₂, hv₃, hv₄]

/-- Three symbols hold two bytes and two bits that must be zero. -/
theorem encode_two {v₁ v₂ v₃ : Nat} (h₁ : v₁ < 64) (h₂ : v₂ < 64) (h₃ : v₃ < 64) (hbits : v₃ % 4 = 0) :
    encode [UInt8.ofNat ((v₁ * 4096 + v₂ * 64 + v₃) / 4 / 256), UInt8.ofNat ((v₁ * 4096 + v₂ * 64 + v₃) / 4)] =
      [symbol v₁, symbol v₂, symbol v₃, padding] := by
  generalize hn : v₁ * 4096 + v₂ * 64 + v₃ = n
  have hjoin := join_two (n := n) (by omega) (by omega)
  have hv₁ : n / 4096 = v₁ := by omega
  have hv₂ : n / 64 % 64 = v₂ := by omega
  have hv₃ : n % 64 = v₃ := by omega
  simp only [encode, UInt8.toNat_ofNat', Nat.reducePow, hjoin, hv₁, hv₂, hv₃]

/-- Two symbols hold a byte and four bits that must be zero. -/
theorem encode_one {v₁ v₂ : Nat} (h₁ : v₁ < 64) (h₂ : v₂ < 64) (hbits : v₂ % 16 = 0) :
    encode [UInt8.ofNat ((v₁ * 64 + v₂) / 16)] = [symbol v₁, symbol v₂, padding, padding] := by
  generalize hn : v₁ * 64 + v₂ = n
  have hjoin : n / 16 % 256 * 16 = n := by omega
  have hv₁ : n / 64 = v₁ := by omega
  have hv₂ : n % 64 = v₂ := by omega
  simp only [encode, UInt8.toNat_ofNat', Nat.reducePow, hjoin, hv₁, hv₂]

/-- A group that is read consists of the symbols of its numbers and the padding, which follows two symbols at least. -/
theorem eq_of_readGroup {offset index pads : Nat} {group : Bytes} {values : List Nat}
    (h : readGroup offset index group = .ok (values, pads)) :
    group = values.map symbol ++ List.replicate pads padding ∧ (∀ v ∈ values, v < 64) ∧
      (pads = 0 ∨ 2 ≤ index + values.length) := by
  induction group generalizing index values pads with
  | nil =>
    cases h
    simp
  | cons b rest ih =>
    rw [readGroup] at h
    split at h
    · rename_i hb
      split at h
      · rename_i hpads
        cases h
        have hrest : rest = List.replicate rest.length padding := by
          simpa [List.eq_replicate_iff] using hpads.2
        refine ⟨?_, by simp, .inr (by simpa using hpads.1)⟩
        rw [List.map_nil, List.nil_append, List.replicate_succ, hb, ← hrest]
      · cases h
    · split at h
      · rename_i v values' pads' hv hrest
        cases h
        obtain ⟨heq, hlt, hpads⟩ := ih hrest
        obtain ⟨hvalue, rfl⟩ := readSymbol_eq_ok_iff.mp hv
        refine ⟨by rw [heq]; rfl, List.forall_mem_cons.mpr ⟨hvalue, hlt⟩, hpads.imp_right fun h => ?_⟩
        rw [List.length_cons]
        omega
      · cases h
      · cases h

/-- A group of at most four symbols that is read is the written form of its bytes. The symbols and the padding make up a whole
group, so their numbers decide the case. -/
theorem eq_encode_of_decodeGroup {offset : Nat} {group b : Bytes} (hlength : group.length ≤ 4)
    (h : decodeGroup offset group = .ok b) : group = encode b := by
  unfold decodeGroup at h
  split at h
  · cases h
  rename_i values pads hread
  obtain ⟨rfl, hlt, hpads⟩ := eq_of_readGroup hread
  simp only [List.length_append, List.length_map, List.length_replicate] at hlength
  split at h
  · cases h
  rename_i hone
  split at h
  · cases h
  rename_i hfour
  have hwhole : values.length + pads = 0 ∨ values.length + pads = 4 := by omega
  split at h
  · simp only [List.forall_mem_cons, List.length_cons, List.length_nil] at hlt hwhole
    obtain rfl : pads = 0 := by omega
    cases h
    exact (encode_three hlt.1 hlt.2.1 hlt.2.2.1 hlt.2.2.2.1 []).symm
  · simp only [List.forall_mem_cons, List.length_cons, List.length_nil] at hlt hwhole
    obtain rfl : pads = 1 := by omega
    split at h
    · cases h
    · rename_i hbits
      cases h
      exact (encode_two hlt.1 hlt.2.1 hlt.2.2.1 (not_not.mp hbits)).symm
  · simp only [List.forall_mem_cons, List.length_cons, List.length_nil] at hlt hwhole
    obtain rfl : pads = 2 := by omega
    split at h
    · cases h
    · rename_i hbits
      cases h
      exact (encode_one hlt.1 hlt.2.1 (not_not.mp hbits)).symm
  · rename_i hfour hthree htwo
    cases h
    rcases values with _ | ⟨v₁, _ | ⟨v₂, _ | ⟨v₃, _ | ⟨v₄, _ | ⟨v₅, values⟩⟩⟩⟩⟩
    · obtain rfl : pads = 0 := by simpa using hpads
      rfl
    · exact absurd rfl hone
    · exact absurd rfl (htwo v₁ v₂)
    · exact absurd rfl (hthree v₁ v₂ v₃)
    · exact absurd rfl (hfour v₁ v₂ v₃ v₄)
    · simp only [List.length_cons] at hlength
      omega

/-! ## Written forms are read -/

theorem split_three (n : Nat) : n / 262144 * 262144 + n / 4096 % 64 * 4096 + n / 64 % 64 * 64 + n % 64 = n := by
  omega

/-- Three bytes are held by four symbols. -/
theorem exists_three (a b c : UInt8) :
    ∃ v₁ v₂ v₃ v₄, v₁ < 64 ∧ v₂ < 64 ∧ v₃ < 64 ∧ v₄ < 64 ∧
      a = UInt8.ofNat ((v₁ * 262144 + v₂ * 4096 + v₃ * 64 + v₄) / 65536) ∧
      b = UInt8.ofNat ((v₁ * 262144 + v₂ * 4096 + v₃ * 64 + v₄) / 256) ∧
      c = UInt8.ofNat (v₁ * 262144 + v₂ * 4096 + v₃ * 64 + v₄) := by
  have ha := a.toNat_lt
  have hb := b.toNat_lt
  have hc := c.toNat_lt
  generalize hn : a.toNat * 65536 + b.toNat * 256 + c.toNat = n
  refine ⟨n / 262144, n / 4096 % 64, n / 64 % 64, n % 64, by omega, by omega, by omega, by omega, ?_⟩
  rw [split_three]
  simp only [← UInt8.toNat_inj, UInt8.toNat_ofNat', Nat.reducePow]
  omega

/-- Two bytes are held by three symbols. -/
theorem exists_two (a b : UInt8) :
    ∃ v₁ v₂ v₃, v₁ < 64 ∧ v₂ < 64 ∧ v₃ < 64 ∧ v₃ % 4 = 0 ∧
      a = UInt8.ofNat ((v₁ * 4096 + v₂ * 64 + v₃) / 4 / 256) ∧ b = UInt8.ofNat ((v₁ * 4096 + v₂ * 64 + v₃) / 4) := by
  have hjoin (n : Nat) : n / 4096 * 4096 + n / 64 % 64 * 64 + n % 64 = n := by omega
  have ha := a.toNat_lt
  have hb := b.toNat_lt
  generalize hn : a.toNat * 1024 + b.toNat * 4 = n
  refine ⟨n / 4096, n / 64 % 64, n % 64, by omega, by omega, by omega, by omega, ?_⟩
  rw [hjoin]
  simp only [← UInt8.toNat_inj, UInt8.toNat_ofNat', Nat.reducePow]
  omega

/-- A byte is held by two symbols. -/
theorem exists_one (a : UInt8) :
    ∃ v₁ v₂, v₁ < 64 ∧ v₂ < 64 ∧ v₂ % 16 = 0 ∧ a = UInt8.ofNat ((v₁ * 64 + v₂) / 16) := by
  have ha := a.toNat_lt
  generalize hn : a.toNat * 16 = n
  refine ⟨n / 64, n % 64, by omega, by omega, by omega, ?_⟩
  rw [Nat.div_add_mod']
  simp only [← UInt8.toNat_inj, UInt8.toNat_ofNat', Nat.reducePow]
  omega

/-- Symbols of numbers and the padding after them are read as a group, if the padding follows two symbols at least. -/
theorem readGroup_written (offset index : Nat) (values : List Nat) (pads : Nat) (hvalues : ∀ v ∈ values, v < 64)
    (hpads : pads = 0 ∨ 2 ≤ index + values.length) :
    readGroup offset index (values.map symbol ++ List.replicate pads padding) = .ok (values, pads) := by
  induction values generalizing index with
  | nil =>
    cases pads with
    | zero => rfl
    | succ pads =>
      rw [List.map_nil, List.nil_append, List.replicate_succ, readGroup, if_pos rfl, if_pos, List.length_replicate]
      exact ⟨by simpa using hpads, by simp⟩
  | cons v values ih =>
    obtain ⟨hv, hvalues⟩ := List.forall_mem_cons.mp hvalues
    have hrest := ih (index + 1) hvalues (hpads.imp_right fun h => by rw [List.length_cons] at h; omega)
    rw [List.map_cons, List.cons_append, readGroup, if_neg (symbol_ne_padding hv), readSymbol_symbol hv, hrest]

/-- The written form of at most three bytes is a group, and is read. -/
theorem decodeGroup_encode (offset : Nat) {b : Bytes} (h : b.length ≤ 3) : decodeGroup offset (encode b) = .ok b := by
  rcases b with _ | ⟨a, _ | ⟨b, _ | ⟨c, _ | ⟨d, rest⟩⟩⟩⟩
  · rfl
  · obtain ⟨v₁, v₂, h₁, h₂, hbits, rfl⟩ := exists_one a
    have hread := readGroup_written offset 0 [v₁, v₂] 2 (by simp [h₁, h₂]) (.inr (by simp))
    simp only [List.map_cons, List.map_nil, List.replicate, List.cons_append, List.nil_append] at hread
    simp [decodeGroup, encode_one h₁ h₂ hbits, hread, hbits]
  · obtain ⟨v₁, v₂, v₃, h₁, h₂, h₃, hbits, rfl, rfl⟩ := exists_two a b
    have hread := readGroup_written offset 0 [v₁, v₂, v₃] 1 (by simp [h₁, h₂, h₃]) (.inr (by simp))
    simp only [List.map_cons, List.map_nil, List.replicate, List.cons_append, List.nil_append] at hread
    simp [decodeGroup, encode_two h₁ h₂ h₃ hbits, hread, hbits]
  · obtain ⟨v₁, v₂, v₃, v₄, h₁, h₂, h₃, h₄, rfl, rfl, rfl⟩ := exists_three a b c
    have hread := readGroup_written offset 0 [v₁, v₂, v₃, v₄] 0 (by simp [h₁, h₂, h₃, h₄]) (.inl rfl)
    simp only [List.map_cons, List.map_nil, List.replicate, List.append_nil] at hread
    rw [encode_three h₁ h₂ h₃ h₄, encode, decodeGroup, hread]
    simp
  · simp only [List.length_cons] at h
    omega

/-- A written form is empty only for no bytes. -/
theorem encode_eq_nil_iff {b : Bytes} : encode b = [] ↔ b = [] := by
  rcases b with _ | ⟨a, _ | ⟨b, _ | ⟨c, rest⟩⟩⟩ <;> simp [encode]

/-- An encoding has four symbols for every three bytes or part of them. -/
theorem encode_length (b : Bytes) : (encode b).length = (b.length + 2) / 3 * 4 := by
  induction b using encode.induct with
  | case1 a b c rest ih =>
    simp only [encode, List.length_cons, ih]
    omega
  | case2 | case3 | case4 => simp [encode]

/-- What was encoded is decoded. A group that more symbols follow is none that may hold padding. -/
theorem decodeFrom_encode (offset : Nat) (b : Bytes) : decodeFrom offset (encode b) = .ok b := by
  induction b using encode.induct generalizing offset with
  | case1 a b c rest ih =>
    by_cases hrest : rest = []
    · subst hrest
      exact decodeGroup_encode offset (b := [a, b, c]) (Nat.le_refl 3)
    · obtain ⟨e, more, hmore⟩ := List.exists_cons_of_ne_nil (mt encode_eq_nil_iff.mp hrest)
      obtain ⟨v₁, v₂, v₃, v₄, h₁, h₂, h₃, h₄, rfl, rfl, rfl⟩ := exists_three a b c
      have hread := ih (offset + 4)
      rw [hmore] at hread
      rw [encode_three h₁ h₂ h₃ h₄, hmore, decodeFrom]
      simp only [readSymbol_symbol h₁, readSymbol_symbol h₂, readSymbol_symbol h₃, readSymbol_symbol h₄, hread]
  | case2 a b => exact decodeGroup_encode offset (b := [a, b]) (Nat.le_succ 2)
  | case3 a => exact decodeGroup_encode offset (b := [a]) (Nat.le_add_left 1 2)
  | case4 => rfl

/-! ## Only written forms are read -/

/-- Only what encoding gives is decoded. -/
theorem eq_encode_of_decodeFrom {offset : Nat} {s b : Bytes} (h : decodeFrom offset s = .ok b) : s = encode b := by
  fun_induction decodeFrom offset s generalizing b with
  | case1 offset _ _ _ _ e rest v₁ v₂ v₃ v₄ hv₄ hv₃ hv₂ hv₁ n bytes hbytes =>
    rename_i ih
    obtain ⟨h₁, rfl⟩ := readSymbol_eq_ok_iff.mp hv₁
    obtain ⟨h₂, rfl⟩ := readSymbol_eq_ok_iff.mp hv₂
    obtain ⟨h₃, rfl⟩ := readSymbol_eq_ok_iff.mp hv₃
    obtain ⟨h₄, rfl⟩ := readSymbol_eq_ok_iff.mp hv₄
    cases h
    rw [ih hbytes, encode_three h₁ h₂ h₃ h₄]
  | case2 | case3 | case4 | case5 | case6 => cases h
  | case7 offset group hshort =>
    refine eq_encode_of_decodeGroup ?_ h
    rcases group with _ | ⟨a, _ | ⟨b, _ | ⟨c, _ | ⟨d, _ | ⟨e, rest⟩⟩⟩⟩⟩
    · exact Nat.zero_le 4
    · exact Nat.le_add_left 1 3
    · exact Nat.le_add_left 2 2
    · exact Nat.le_succ 3
    · exact Nat.le_refl 4
    · exact (hshort a b c d e rest rfl).elim

/-- What is read is the written form of the bytes that are found, and every written form is read. -/
theorem decode_eq_ok_iff {s b : Bytes} : decode s = .ok b ↔ s = encode b := by
  constructor
  · intro h
    unfold decode at h
    split at h
    · split at h
      · cases h
      · exact eq_encode_of_decodeFrom h
    · rename_i hlast
      cases h
      exact List.getLast?_eq_none_iff.mp hlast
  · rintro rfl
    have hfour : (encode b).length % 4 ≠ 1 := by
      rw [encode_length]
      omega
    unfold decode
    split
    · rw [if_neg fun h => hfour h.1]
      exact decodeFrom_encode 0 b
    · rename_i hlast
      rw [encode_eq_nil_iff.mp (List.getLast?_eq_none_iff.mp hlast)]

end EnvelopeLog.Base64
