import EnvelopeLog.Proofs.Rsa.Key
import EnvelopeLog.Proofs.Text.Base64

/-!
# Which blobs hold a private key

A text shows a number if it is, white space around it aside, the written form of bytes of the number, and at least one
(`Shows`). A blob holds a private key exactly if it shows consistent numbers and no wrong derived one (`ofBlob_exact`): which
of the derived numbers are there makes no difference to the key, and whatever the blob is, no remainder by zero is taken.
-/

namespace EnvelopeLog

theorem mapError_eq_ok_iff {α ε ε' : Type} {x : Except ε α} {f : ε → ε'} {a : α} : x.mapError f = .ok a ↔ x = .ok a := by
  cases x <;> simp [Except.mapError]

theorem elim_error_eq_ok_iff {α ε : Type} {x : Option α} {e : ε} {a : α} :
    x.elim (Except.error e) Except.ok = .ok a ↔ x = some a := by
  cases x <;> simp

namespace KeyBlob

/-! ## Numbers -/

/-- Whether a text, white space around it aside, is the written form of bytes of a number, and at least one. -/
def Shows (value : String) (n : Nat) : Prop :=
  ∃ b : Bytes, b ≠ [] ∧ Bytes.ofText (String.ofList (Text.trim value.toList)) = Base64.encode b ∧
    Bytes.fromBigEndian b = n

/-- A number is read exactly of a string that shows it. -/
theorem readNumber_eq_ok_iff {field value : String} {n : Nat} : readNumber field value = .ok n ↔ Shows value n := by
  unfold readNumber Shows
  constructor
  · intro h
    split at h
    · cases h
    · cases h
    · rename_i b hne hdecode
      cases h
      exact ⟨b, hne, Base64.decode_eq_ok_iff.mp hdecode, rfl⟩
  · rintro ⟨b, hne, hwritten, rfl⟩
    rw [Base64.decode_eq_ok_iff.mpr hwritten]
    obtain ⟨x, rest, rfl⟩ := List.exists_cons_of_ne_nil hne
    rfl

/-- A required number is read exactly if its field is there and shows it. -/
theorem requireNumber_eq_ok_iff {field : String} {value : Option String} {n : Nat} :
    requireNumber field value = .ok n ↔ ∃ s, value = some s ∧ Shows s n := by
  cases value with
  | none => simp [requireNumber]
  | some s => simp [requireNumber, readNumber_eq_ok_iff]

/-- A text shows one number only. -/
theorem Shows.unique {value : String} {m n : Nat} (hm : Shows value m) (hn : Shows value n) : m = n := by
  have h : readNumber "" value = .ok m := readNumber_eq_ok_iff.mpr hm
  rw [readNumber_eq_ok_iff.mpr hn] at h
  exact (Except.ok.inj h).symm

/-- A field that can be derived passes exactly if it is missing or shows the derived number. -/
theorem checkDerived_eq_ok_iff {field : String} {value : Option String} {derived : Nat} :
    checkDerived field value derived = .ok () ↔ ∀ s ∈ value, Shows s derived := by
  cases value with
  | none => simp [checkDerived]
  | some s =>
    simp only [checkDerived, Option.mem_some_iff, forall_eq']
    cases hread : readNumber field s with
    | error e =>
      refine ⟨nofun, fun h => ?_⟩
      rw [readNumber_eq_ok_iff.mpr h] at hread
      cases hread
    | ok n =>
      have hn := readNumber_eq_ok_iff.mp hread
      dsimp only
      split
      · rename_i heq
        exact ⟨fun _ => heq ▸ hn, fun _ => rfl⟩
      · rename_i hne
        exact ⟨nofun, fun h => absurd (hn.unique h) hne⟩

/-! ## Keys -/

/-- Whether a blob shows the numbers of a private key, the derived ones as far as they are there. -/
structure Holds (b : KeyBlob) (n e d p q : Nat) : Prop where
  shows_n : Shows b.modulus n
  shows_e : Shows b.exponent e
  shows_d : ∃ s, b.d = some s ∧ Shows s d
  shows_p : ∃ s, b.p = some s ∧ Shows s p
  shows_q : ∃ s, b.q = some s ∧ Shows s q
  shows_dp : ∀ s ∈ b.dp, Shows s (d % (p - 1))
  shows_dq : ∀ s ∈ b.dq, Shows s (d % (q - 1))
  shows_inverse : ∀ s ∈ b.inverseQ, ∃ i, Shows s i ∧ i < p ∧ q * i ≡ 1 [MOD p]

/-- The modulus, the exponents and the primes that a blob shows. -/
def numbers (b : KeyBlob) : Except KeyDefect (Nat × Nat × Nat × Nat × Nat) := do
  let n ← readNumber "Modulus" b.modulus
  let e ← readNumber "Exponent" b.exponent
  let d ← requireNumber "D" b.d
  let p ← requireNumber "P" b.p
  let q ← requireNumber "Q" b.q
  .ok (n, e, d, p, q)

/-- Whether the derived numbers that a blob shows are those of a shortcut. -/
def checkShortcut (b : KeyBlob) (s : Rsa.Shortcut) : Except KeyDefect Unit := do
  checkDerived "DP" b.dp s.dp
  checkDerived "DQ" b.dq s.dq
  checkDerived "InverseQ" b.inverseQ s.qInverse

/-- The numbers of a blob are read exactly if its fields show them. -/
theorem numbers_eq_ok_iff {b : KeyBlob} {n e d p q : Nat} :
    b.numbers = .ok (n, e, d, p, q) ↔ Shows b.modulus n ∧ Shows b.exponent e ∧ (∃ s, b.d = some s ∧ Shows s d) ∧
      (∃ s, b.p = some s ∧ Shows s p) ∧ ∃ s, b.q = some s ∧ Shows s q := by
  simp only [numbers, bind_eq_ok, readNumber_eq_ok_iff, requireNumber_eq_ok_iff, Except.ok.injEq, Prod.mk.injEq]
  constructor
  · rintro ⟨n, hn, e, he, d, hd, p, hp, q, hq, rfl, rfl, rfl, rfl, rfl⟩
    exact ⟨hn, he, hd, hp, hq⟩
  · rintro ⟨hn, he, hd, hp, hq⟩
    exact ⟨n, hn, e, he, d, hd, p, hp, q, hq, rfl, rfl, rfl, rfl, rfl⟩

/-- The numbers for fast decryption pass exactly if those of the blob that are there are right. -/
theorem checkShortcut_eq_ok_iff {b : KeyBlob} {s : Rsa.Shortcut} :
    b.checkShortcut s = .ok () ↔
      (∀ t ∈ b.dp, Shows t s.dp) ∧ (∀ t ∈ b.dq, Shows t s.dq) ∧ ∀ t ∈ b.inverseQ, Shows t s.qInverse := by
  simp only [checkShortcut, bind_eq_ok]
  constructor
  · rintro ⟨⟨⟩, hdp, ⟨⟩, hdq, hinverse⟩
    exact ⟨checkDerived_eq_ok_iff.mp hdp, checkDerived_eq_ok_iff.mp hdq, checkDerived_eq_ok_iff.mp hinverse⟩
  · rintro ⟨hdp, hdq, hinverse⟩
    exact ⟨(), checkDerived_eq_ok_iff.mpr hdp, (), checkDerived_eq_ok_iff.mpr hdq, checkDerived_eq_ok_iff.mpr hinverse⟩

/-- A private key is made of the numbers, examined, and compared with the derived numbers. -/
theorem toPrivateKey_eq (b : KeyBlob) :
    b.toPrivateKey = (do
      let (n, e, d, p, q) ← b.numbers
      let k ← (Rsa.PrivateKey.ofComponents n e d [p, q]).mapError .privateRefused
      let s ← k.shortcut?.elim (.error (.noShortcut .invalidPrime)) .ok
      b.checkShortcut s
      .ok k) := by
  unfold toPrivateKey numbers
  cases readNumber "Modulus" b.modulus with
  | error _ => rfl
  | ok n =>
  cases readNumber "Exponent" b.exponent with
  | error _ => rfl
  | ok e =>
  cases requireNumber "D" b.d with
  | error _ => rfl
  | ok d =>
  cases requireNumber "P" b.p with
  | error _ => rfl
  | ok p =>
  cases requireNumber "Q" b.q with
  | error _ => rfl
  | ok q =>
  simp only [bind, Except.bind]
  cases Rsa.PrivateKey.ofComponents n e d [p, q] with
  | error _ => rfl
  | ok k =>
    simp only [Except.mapError]
    cases k.shortcut? with
    | none => rfl
    | some s =>
      simp only [checkShortcut, bind, Except.bind, Option.elim]
      cases checkDerived "DP" b.dp s.dp with
      | error _ => rfl
      | ok _ =>
        dsimp only
        cases checkDerived "DQ" b.dq s.dq <;> rfl

/-- A blob makes a private key exactly if its numbers do and those for fast decryption are right. -/
theorem toPrivateKey_eq_ok_iff {b : KeyBlob} {k : Rsa.PrivateKey} :
    b.toPrivateKey = .ok k ↔ ∃ n e d p q, b.numbers = .ok (n, e, d, p, q) ∧
      ∃ s, (Rsa.PrivateKey.ofComponents n e d [p, q] = .ok k ∧ k.shortcut? = some s) ∧ b.checkShortcut s = .ok () := by
  rw [toPrivateKey_eq]
  simp only [bind_eq_ok, mapError_eq_ok_iff, elim_error_eq_ok_iff, Except.ok.injEq]
  constructor
  · rintro ⟨⟨n, e, d, p, q⟩, hnumbers, k, hk, s, hs, ⟨⟩, hderived, rfl⟩
    exact ⟨n, e, d, p, q, hnumbers, s, ⟨hk, hs⟩, hderived⟩
  · rintro ⟨n, e, d, p, q, hnumbers, s, ⟨hk, hs⟩, hderived⟩
    exact ⟨(n, e, d, p, q), hnumbers, k, hk, s, hs, (), hderived, rfl⟩

/-- A blob gives a key exactly if it shows numbers that belong together; the key is made of them. There is one inverse below
`p`, so the one that the blob shows is the one of the shortcut. -/
theorem toPrivateKey_eq_ok_iff_holds {b : KeyBlob} {k : Rsa.PrivateKey} :
    b.toPrivateKey = .ok k ↔ ∃ n e d p q, b.Holds n e d p q ∧ Rsa.Consistent n e d p q ∧
      k = { modulus := n, exponent := e, privateExponent := d, primes := [p, q] } := by
  rw [toPrivateKey_eq_ok_iff]
  constructor
  · rintro ⟨n, e, d, p, q, hnumbers, s, hs, hderived⟩
    obtain ⟨hn, he, hd, hp, hq⟩ := numbers_eq_ok_iff.mp hnumbers
    obtain ⟨hconsistent, rfl, i, hbelow, hinverse, rfl⟩ := Rsa.ofComponents_shortcut_iff.mp hs
    obtain ⟨hdp, hdq, hi⟩ := checkShortcut_eq_ok_iff.mp hderived
    exact ⟨n, e, d, p, q, ⟨hn, he, hd, hp, hq, hdp, hdq, fun t ht => ⟨i, hi t ht, hbelow, hinverse⟩⟩, hconsistent, rfl⟩
  · rintro ⟨n, e, d, p, q, hholds, hconsistent, rfl⟩
    have hnumbers := numbers_eq_ok_iff.mpr
      ⟨hholds.shows_n, hholds.shows_e, hholds.shows_d, hholds.shows_p, hholds.shows_q⟩
    obtain ⟨j, hbelow, hinverse⟩ := hconsistent.exists_inverse
    refine ⟨n, e, d, p, q, hnumbers, ⟨p, q, d % (p - 1), d % (q - 1), j⟩,
      Rsa.ofComponents_shortcut_iff.mpr ⟨hconsistent, rfl, j, hbelow, hinverse, rfl⟩,
      checkShortcut_eq_ok_iff.mpr ⟨hholds.shows_dp, hholds.shows_dq, fun t ht => ?_⟩⟩
    obtain ⟨i, hi, hi_lt, hi_inverse⟩ := hholds.shows_inverse t ht
    rwa [← Rsa.inverse_unique hi_lt hi_inverse hbelow hinverse]

/-! ## No remainder by zero -/

/-- The private key of a blob where a remainder by zero is undefined. -/
def toPrivateKeyStrict (b : KeyBlob) : Option (Except KeyDefect Rsa.PrivateKey) :=
  match b.numbers with
  | .error defect => some (.error defect)
  | .ok (n, e, d, p, q) =>
    let k : Rsa.PrivateKey := { modulus := n, exponent := e, privateExponent := d, primes := [p, q] }
    k.checkStrict.bind fun
      | .error refusal => some (.error (.privateRefused refusal))
      | .ok () => k.shortcutStrict.map fun
        | none => .error (.noShortcut .invalidPrime)
        | some s => (b.checkShortcut s).map fun _ => k

/-- No blob makes a remainder by zero necessary. -/
theorem toPrivateKeyStrict_eq (b : KeyBlob) : b.toPrivateKeyStrict = some b.toPrivateKey := by
  rw [toPrivateKeyStrict, toPrivateKey_eq]
  rcases b.numbers with _ | ⟨n, e, d, p, q⟩
  · rfl
  · simp only [bind, Except.bind, Rsa.PrivateKey.checkStrict_eq, Option.bind_some, Rsa.PrivateKey.ofComponents]
    cases hcheck : Rsa.PrivateKey.check { modulus := n, exponent := e, privateExponent := d, primes := [p, q] } with
    | error refusal => rfl
    | ok =>
      simp only [Except.mapError, Rsa.PrivateKey.shortcutStrict_eq hcheck, Option.map_some]
      cases Rsa.PrivateKey.shortcut? _ with
      | none => rfl
      | some s => cases b.checkShortcut s <;> rfl

end KeyBlob

namespace Rsa.PrivateKey

/-- A private key is made exactly of a blob that is meant for one. -/
theorem ofBlob_eq_ok_iff {b : KeyBlob} {k : PrivateKey} : ofBlob b = .ok k ↔ b.d ≠ none ∧ b.toPrivateKey = .ok k := by
  rw [ofBlob, ite_error_eq_ok_iff]
  refine and_congr_right fun _ => ?_
  cases b.toPrivateKey <;> simp

/-- Exactly the blobs that show numbers that belong together hold a private key. -/
theorem ofBlob_eq_ok_iff_holds {b : KeyBlob} {k : PrivateKey} :
    ofBlob b = .ok k ↔ ∃ n e d p q, b.Holds n e d p q ∧ Consistent n e d p q ∧
      k = { modulus := n, exponent := e, privateExponent := d, primes := [p, q] } := by
  rw [ofBlob_eq_ok_iff, KeyBlob.toPrivateKey_eq_ok_iff_holds, and_iff_right_iff_imp]
  rintro ⟨n, e, d, p, q, hholds, -, -⟩
  obtain ⟨s, hs, -⟩ := hholds.shows_d
  rw [hs]
  exact nofun

/-- A blob that holds no private key is an invalid key. -/
theorem ofBlob_cases (b : KeyBlob) :
    (∃ k, ofBlob b = .ok k) ∨ ∃ defect, ofBlob b = .error (.invalid (.cause defect)) := by
  unfold ofBlob
  split
  · exact .inr ⟨_, rfl⟩
  · split
    · exact .inr ⟨_, rfl⟩
    · exact .inl ⟨_, rfl⟩

/-- Exactly the blobs that show numbers that belong together are private keys. Whatever derived numbers are there, the key is
made of the modulus, the exponents and the primes. Every other blob is an invalid key, and no blob makes a remainder by zero
necessary. -/
theorem ofBlob_exact (b : KeyBlob) :
    (∀ k, ofBlob b = .ok k ↔ ∃ n e d p q, b.Holds n e d p q ∧ Consistent n e d p q ∧
      k = { modulus := n, exponent := e, privateExponent := d, primes := [p, q] }) ∧
    ((∃ k, ofBlob b = .ok k) ∨ ∃ defect, ofBlob b = .error (.invalid (.cause defect))) ∧
    b.toPrivateKeyStrict = some b.toPrivateKey := by
  exact ⟨fun _ => ofBlob_eq_ok_iff_holds, ofBlob_cases b, KeyBlob.toPrivateKeyStrict_eq b⟩

end Rsa.PrivateKey

end EnvelopeLog
