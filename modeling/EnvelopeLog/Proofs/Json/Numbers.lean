import EnvelopeLog.Proofs.Json.Objects

/-!
# Natural numbers are read exactly as they are written

A field that holds natural numbers up to a bound takes the digits of such a number, without superfluous zeros, and no other value:
whatever else a member has for a value is a failure, be it a number with a sign, a fraction or an exponent, a number that is too
large, or no number (`readDatum_natural`). So nothing is rounded or cut off.
-/

namespace EnvelopeLog.Json

section

variable {positive : Bool} {s n : Nat} {e : Int} {text whole decimals digits rest after : List Char} {x : Number}

/-! ## Fractions -/

/-- Whether a number is none of the whole numbers that fields hold. -/
def Number.IsFraction : Number → Prop
  | .fraction _ => True
  | _ => False

/-- A significand with a power of ten is no whole number, whatever it amounts to. -/
theorem toFraction_isFraction (h : toFraction positive s e text = .ok (x, rest)) : x.IsFraction := by
  unfold toFraction at h
  split at h
  · cases h
    trivial
  · cases h

/-- A number with an exponent is no whole number. -/
theorem readPower_isFraction {up : Bool} (h : readPower positive s e up text = .ok (x, rest)) : x.IsFraction := by
  unfold readPower at h
  split at h
  · cases h
  · split at h
    · cases h
    · split at h
      · exact toFraction_isFraction h
      · split at h
        · cases h
        · cases h
          trivial

theorem readExponent_isFraction (h : readExponent positive s e text = .ok (x, rest)) : x.IsFraction :=
  readPower_isFraction h

/-- A number with a point is no whole number. -/
theorem readDecimals_isFraction (h : readDecimals positive s e text = .ok (x, rest)) : x.IsFraction := by
  unfold readDecimals at h
  dsimp only at h
  split at h
  · cases h
  · split at h
    · exact readExponent_isFraction h
    · exact readExponent_isFraction h
    · exact toFraction_isFraction h

/-! ## Digits -/

theorem Whole.isDigit (h : Whole whole) : ∀ c ∈ whole, c.isDigit := by
  cases h with
  | zero => exact List.forall_mem_singleton.mpr rfl
  | digits digit _ digits => exact List.forall_mem_cons.mpr ⟨digit, digits⟩

theorem Whole.ne_nil (h : Whole whole) : whole ≠ [] := by
  cases h <;> exact List.cons_ne_nil _ _

theorem absorb_le (s : Nat) (digits : List Char) : (absorb s digits).2 ≤ digits.length := by
  induction digits generalizing s with
  | nil => exact Nat.le_refl 0
  | cons c digits ih =>
    rw [absorb]
    dsimp only
    split
    · exact Nat.succ_le_succ (ih _)
    · exact Nat.zero_le _

/-- What digits amount to stays below the bound of machine words. -/
theorem absorb_lt (h : s < 0x10000000000000000) (digits : List Char) : (absorb s digits).1 < 0x10000000000000000 := by
  induction digits generalizing s with
  | nil => exact h
  | cons c digits ih =>
    rw [absorb]
    dsimp only
    split
    · rename_i hnext
      exact ih hnext
    · exact h

/-- A digit is the character of its number, which is less than ten. -/
theorem digitChar_digit {c : Char} (h : c.isDigit) : (digit c).digitChar = c ∧ digit c < 10 := by
  have hrange : 48 ≤ c.toNat ∧ c.toNat ≤ 57 := by
    simpa [Char.isDigit, Char.le_def, UInt32.le_iff_toNat_le] using h
  have hlt : digit c < 10 := by
    rw [digit]
    omega
  refine ⟨Char.toNat_inj.mp ?_, hlt⟩
  rw [Nat.toNat_digitChar_of_lt_ten hlt, digit]
  omega

/-- Digits behind those of a positive number are the digits of the number that takes them up. -/
theorem toDigits_of_absorb (hs : 0 < s) (hdigits : ∀ c ∈ digits, c.isDigit) (h : absorb s digits = (n, digits.length)) :
    Nat.toDigits 10 s ++ digits = Nat.toDigits 10 n := by
  induction digits generalizing s with
  | nil =>
    cases h
    exact List.append_nil _
  | cons c digits ih =>
    obtain ⟨hc, hdigits⟩ := List.forall_mem_cons.mp hdigits
    obtain ⟨hchar, hlt⟩ := digitChar_digit hc
    rw [absorb] at h
    dsimp only at h
    split at h
    · obtain ⟨hvalue, hcount⟩ := Prod.mk.inj h
      have hrest := ih (by omega) hdigits (Prod.ext hvalue (Nat.succ_inj.mp hcount))
      have hdiv : (s * 10 + digit c) / 10 = s := by omega
      have hmod : (s * 10 + digit c) % 10 = digit c := by omega
      rw [Nat.toDigits_of_base_le (by decide) (show 10 ≤ s * 10 + digit c by omega), hdiv, hmod, hchar] at hrest
      rw [← hrest, List.append_assoc, List.singleton_append]
    · cases h

/-- The whole part of a number that is read to its end is written as the digits of what is read. -/
theorem toDigits_of_whole (hwhole : Whole whole) (h : absorb 0 whole = (n, whole.length)) : Nat.toDigits 10 n = whole := by
  cases hwhole with
  | zero =>
    cases h
    rfl
  | @digits c more hc hnonzero hmore =>
    obtain ⟨hchar, hlt⟩ := digitChar_digit hc
    have hpos : 0 < digit c := by
      rw [Nat.pos_iff_ne_zero]
      intro hzero
      rw [hzero] at hchar
      exact hnonzero hchar.symm
    rw [absorb] at h
    dsimp only at h
    rw [Nat.zero_mul, Nat.zero_add] at h
    split at h
    · obtain ⟨hvalue, hcount⟩ := Prod.mk.inj h
      have hdigits := toDigits_of_absorb hpos hmore (Prod.ext hvalue (Nat.succ_inj.mp hcount))
      rw [Nat.toDigits_of_lt_base hlt, hchar] at hdigits
      exact hdigits.symm
    · cases h

/-! ## Numbers -/

/-- A number that is read as a natural number is written as its digits, without a sign and with nothing behind them. -/
theorem readNumber_natural (hwhole : Whole whole) (hdecimals : Decimals decimals) (hrest : Ends rest)
    (h : readNumber positive (whole ++ (decimals ++ rest)) = .ok (.natural n, after)) :
    positive = true ∧ n < 0x10000000000000000 ∧ whole ++ decimals = Nat.toDigits 10 n ∧ after = rest := by
  have hdrop := dropWhile_digits hwhole.isDigit (hdecimals.not_digit hrest)
  have htake : (whole ++ (decimals ++ rest)).takeWhile Char.isDigit = whole :=
    List.append_cancel_right (hdrop ▸ List.takeWhile_append_dropWhile)
  rw [readNumber, htake, hdrop] at h
  dsimp only at h
  split at h
  · cases h
  · cases h
  split at h
  · exact absurd (readDecimals_isFraction h) id
  · exact absurd (readExponent_isFraction h) id
  · exact absurd (readExponent_isFraction h) id
  rename_i hpoint hlower hupper
  split at h
  · exact absurd (toFraction_isFraction h) id
  rename_i hall
  split at h
  · rename_i hpositive
    cases h
    have hempty : decimals = [] := by
      cases hdecimals with
      | exponent exponent =>
        cases exponent with
        | nothing => rfl
        | power letter =>
          rcases letter with rfl | rfl
          · exact absurd rfl (hlower _)
          · exact absurd rfl (hupper _)
      | point => exact absurd rfl (hpoint _)
    have habsorb : absorb 0 whole = ((absorb 0 whole).1, whole.length) := by
      have := absorb_le 0 whole
      exact Prod.ext rfl (by omega)
    refine ⟨hpositive, absorb_lt (by decide) whole, ?_, by rw [hempty, List.nil_append]⟩
    rw [hempty, List.append_nil, toDigits_of_whole hwhole habsorb]
  · split at h
    · exact absurd (toFraction_isFraction h) id
    · cases h

/-! ## Values of fields -/

section

variable {range : String} {bound : Nat} {d : Datum}

/-- What a bounded field takes is a whole number within its bound. -/
theorem boundedNatural_eq_ok (h : boundedNatural range bound x rest = .ok (d, after)) :
    ∃ n, x = .natural n ∧ n ≤ bound ∧ d = .natural n ∧ after = rest := by
  unfold boundedNatural at h
  split at h
  · rename_i n
    split at h
    · rename_i hbound
      cases h
      exact ⟨n, rfl, hbound, rfl, rfl⟩
    · cases h
  · cases h
  · cases h

/-- What is taken for a natural number begins with a digit or, as far as its first character tells, with a minus sign. -/
theorem readNaturalValue_eq_ok (h : readNaturalValue range bound text = .ok (d, after)) :
    ∃ n, n ≤ bound ∧ d = .natural n ∧
      ((∃ more, text = '-' :: more ∧ readNumber false more = .ok (.natural n, after)) ∨
        (∃ c ∈ text.head?, c.isDigit) ∧ readNumber true text = .ok (.natural n, after)) := by
  unfold readNaturalValue at h
  split at h
  · cases h
  rename_i c more
  split at h
  · rename_i hminus
    split at h
    · cases h
    · rename_i hnumber
      obtain ⟨n, rfl, hbound, hd, rfl⟩ := boundedNatural_eq_ok h
      exact ⟨n, hbound, hd, .inl ⟨more, by rw [hminus], hnumber⟩⟩
  · split at h
    · rename_i hdigit
      split at h
      · cases h
      · rename_i hnumber
        obtain ⟨n, rfl, hbound, hd, rfl⟩ := boundedNatural_eq_ok h
        exact ⟨n, hbound, hd, .inr ⟨⟨c, rfl, hdigit⟩, hnumber⟩⟩
    · cases h

/-- A value that begins as a number does is one. -/
theorem Form.exists_number {value : List Char} (h : Form .value value)
    (hfirst : ∃ c ∈ value.head?, c = '-' ∨ c.isDigit) :
    ∃ sign whole decimals, sign ∈ [[], ['-']] ∧ Whole whole ∧ Decimals decimals ∧ value = sign ++ (whole ++ decimals) := by
  obtain ⟨c, hc, hfirst⟩ := hfirst
  cases h with
  | number signed whole decimals => exact ⟨_, _, _, signed, whole, decimals, rfl⟩
  | word word =>
    simp only [List.mem_cons, List.not_mem_nil, or_false] at word
    rcases word with rfl | rfl | rfl <;> cases hc <;> exact absurd hfirst (by decide)
  | text =>
    cases hc
    exact absurd hfirst (by decide)
  | @bracket b => cases b <;> cases hc <;> exact absurd hfirst (by decide)

/-- A field of natural numbers takes the digits of a number within its bound and nothing else. -/
theorem readDatum_natural {gap value : List Char} (hgap : Blank gap) (hvalue : Form .value value) (hrest : Ends rest)
    (h : readDatum (.natural range bound) (gap ++ (value ++ rest)) = .ok (d, after)) :
    (Kind.natural range bound).Takes d ∧ Written d value ∧ after = rest := by
  obtain ⟨first, others, hcons, hblank, -⟩ := hvalue.exists_head
  have hskip : skipBlanks (value ++ rest) = value ++ rest := by rw [hcons, List.cons_append, skipBlanks_cons hblank]
  rw [readDatum_of_blank hgap, readDatum, hskip] at h
  obtain ⟨n, hbound, rfl, hread⟩ := readNaturalValue_eq_ok h
  have hfirst : ∃ c ∈ value.head?, c = '-' ∨ c.isDigit := by
    rw [hcons] at hread ⊢
    rcases hread with ⟨more, htext, -⟩ | ⟨⟨c, hc, hdigit⟩, -⟩
    · exact ⟨first, rfl, .inl (List.cons.inj htext).1⟩
    · exact ⟨c, hc, .inr hdigit⟩
  obtain ⟨sign, whole, decimals, hsign, hwhole, hdecimals, rfl⟩ := hvalue.exists_number hfirst
  have hdigits := hwhole.isDigit
  obtain ⟨c, more, rfl⟩ := List.exists_cons_of_ne_nil hwhole.ne_nil
  simp only [List.mem_cons, List.not_mem_nil, or_false] at hsign
  rcases hsign with rfl | rfl
  · have hc : c ≠ '-' := by
      rintro rfl
      exact absurd (hdigits _ List.mem_cons_self) (by decide)
    rcases hread with ⟨_, htext, -⟩ | ⟨-, hnumber⟩
    · exact absurd (List.cons.inj htext).1 hc
    · rw [List.nil_append] at hnumber ⊢
      rw [List.append_assoc] at hnumber
      obtain ⟨-, hlt, hnatural, hafter⟩ := readNumber_natural hwhole hdecimals hrest hnumber
      rw [hnatural]
      exact ⟨⟨hbound, hlt⟩, .natural n, hafter⟩
  · rcases hread with ⟨text, htext, hnumber⟩ | ⟨⟨c, hc, hdigit⟩, -⟩
    · rw [List.singleton_append, List.cons_append, List.append_assoc] at htext
      rw [← (List.cons.inj htext).2] at hnumber
      exact nomatch (readNumber_natural hwhole hdecimals hrest hnumber).1
    · cases hc
      exact absurd hdigit (by decide)

end

/-! ## Numbers out of range -/

/-- Different numbers have different digits. -/
theorem toDigits_inj {m : Nat} (h : Nat.toDigits 10 m = Nat.toDigits 10 n) : m = n := by
  rw [← Nat.ofDigitChars_toDigits (n := m) (b := 10) (by decide) (by decide), h,
    Nat.ofDigitChars_toDigits (by decide) (by decide)]

/-- How a number is written that is no natural number below a limit: with a minus sign, with a fraction or an exponent, or by the
digits of a number that is too large. -/
inductive OutOfRange (limit : Nat) : List Char → Prop
  | negative {more : List Char} : OutOfRange limit ('-' :: more)
  | fraction {whole decimals : List Char} (isWhole : Whole whole) (isDecimals : Decimals decimals)
      (nonempty : decimals ≠ []) : OutOfRange limit (whole ++ decimals)
  | large {n : Nat} (large : limit ≤ n) : OutOfRange limit (Nat.toDigits 10 n)

/-- Behind the whole part of a number, nothing but digits is nothing. -/
theorem Decimals.eq_nil_of_digits (h : Decimals decimals) (hdigits : ∀ c ∈ decimals, c.isDigit) : decimals = [] := by
  cases h with
  | point => exact absurd (hdigits '.' List.mem_cons_self) (by decide)
  | exponent exponent =>
    cases exponent with
    | nothing => rfl
    | power letter =>
      rcases letter with rfl | rfl
      · exact absurd (hdigits 'e' List.mem_cons_self) (by decide)
      · exact absurd (hdigits 'E' List.mem_cons_self) (by decide)

/-- The digits of a number within a limit are not out of its range. -/
theorem not_outOfRange {limit : Nat} (hn : n < limit) : ¬OutOfRange limit (Nat.toDigits 10 n) := by
  have hdigits : ∀ c ∈ Nat.toDigits 10 n, c.isDigit := fun c hc => Nat.isDigit_of_mem_toDigits (by decide) (by decide) hc
  intro h
  generalize htext : Nat.toDigits 10 n = text at h
  rw [htext] at hdigits
  cases h with
  | negative => exact absurd (hdigits '-' List.mem_cons_self) (by decide)
  | fraction isWhole isDecimals nonempty =>
    exact nonempty (isDecimals.eq_nil_of_digits fun c hc => hdigits c (List.mem_append_right _ hc))
  | large large =>
    rw [toDigits_inj htext] at hn
    exact absurd large (Nat.not_le.mpr hn)

end

end EnvelopeLog.Json
