import EnvelopeLog.KeyBlob
import EnvelopeLog.Proofs.Bytes
import EnvelopeLog.Proofs.Rsa.Examination

/-!
# Keys that stand up to examination

`PrivateKey.Sound` collects what is known of a private key that was examined and has a shortcut; every key that a text holds
is sound (`sound_of_ofText`). Nothing in it says that the primes are primes. Under a sound key lowering gives a number below
the modulus (`lower_lt`), and if the primes are primes it undoes raising (`lower_raise`).
-/

namespace EnvelopeLog

/-- A result of two steps one after the other is a result of the second for a result of the first. -/
theorem bind_eq_ok {α β ε : Type} {x : Except ε α} {f : α → Except ε β} {b : β} :
    x >>= f = .ok b ↔ ∃ a, x = .ok a ∧ f a = .ok b := by
  cases x with
  | error e => simp [bind, Except.bind]
  | ok a => simp [bind, Except.bind]

namespace Rsa

/-- A private key that was examined, with its shortcut. -/
structure PrivateKey.Sound (k : PrivateKey) (s : Shortcut) : Prop where
  shortcut : k.shortcut? = some s
  primes : k.primes = [s.p, s.q]
  one_lt_p : 1 < s.p
  one_lt_q : 1 < s.q
  product : s.p * s.q = k.modulus
  dp : s.dp = k.privateExponent % (s.p - 1)
  dq : s.dq = k.privateExponent % (s.q - 1)
  exponents_p : k.privateExponent * k.exponent % (s.p - 1) = 1
  exponents_q : k.privateExponent * k.exponent % (s.q - 1) = 1
  inverse : s.q * s.qInverse ≡ 1 [MOD s.p]

namespace PrivateKey

variable {k : PrivateKey} {s : Shortcut}

/-! ## Soundness -/

/-- A key that passes its check and has a shortcut is sound. -/
theorem sound_of_check (h : k.check = .ok ()) (hs : k.shortcut? = some s) : k.Sound s := by
  obtain ⟨-, hone, hproduct, hexponents⟩ := check_eq_ok_iff.mp h
  obtain ⟨hprimes, hinverse, hdp, hdq⟩ := shortcut_eq_some hs
  have hp := hone s.p (by simp [hprimes])
  refine ⟨hs, hprimes, hp, hone s.q (by simp [hprimes]), ?_, hdp, hdq, hexponents s.p (by simp [hprimes]),
    hexponents s.q (by simp [hprimes]), mul_inverse_modEq (by omega) hinverse⟩
  simpa [product, hprimes] using hproduct

/-- Every private key that a blob holds is sound. -/
theorem sound_of_blob {b : KeyBlob} (h : b.toPrivateKey = .ok k) : ∃ s, k.Sound s := by
  unfold KeyBlob.toPrivateKey at h
  obtain ⟨n, -, h⟩ := bind_eq_ok.mp h
  obtain ⟨e, -, h⟩ := bind_eq_ok.mp h
  obtain ⟨d, -, h⟩ := bind_eq_ok.mp h
  obtain ⟨p, -, h⟩ := bind_eq_ok.mp h
  obtain ⟨q, -, h⟩ := bind_eq_ok.mp h
  split at h
  · cases h
  · rename_i k' hcomponents
    split at h
    · cases h
    · rename_i s hshortcut
      obtain ⟨-, -, h⟩ := bind_eq_ok.mp h
      obtain ⟨-, -, h⟩ := bind_eq_ok.mp h
      obtain ⟨-, -, h⟩ := bind_eq_ok.mp h
      cases h
      exact ⟨s, sound_of_check (check_of_ofComponents hcomponents) hshortcut⟩

/-- Every private key that a text holds is sound. -/
theorem sound_of_ofText {text : String} (h : ofText text = .ok k) : ∃ s, k.Sound s := by
  unfold ofText ofBlob at h
  split at h
  · cases h
  · split at h
    · cases h
    · split at h
      · cases h
      · rename_i hblob
        cases h
        exact sound_of_blob hblob

/-! ## Lowering -/

/-- Lowering by the shortcut is the power modulo one prime, corrected by a multiple of it. -/
theorem Sound.lower_eq (h : k.Sound s) (c : Nat) :
    k.lower c = power c s.dq s.q +
      (((power c s.dp s.p : Nat) - (power c s.dq s.q : Nat) : Int) * s.qInverse % s.p).toNat * s.q := by
  rw [lower, h.shortcut]

/-- Whatever is lowered, the number found is below the modulus. -/
theorem Sound.lower_lt (h : k.Sound s) (c : Nat) : k.lower c < k.modulus := by
  have hp := h.one_lt_p
  have hq := h.one_lt_q
  rw [h.lower_eq, ← h.product]
  exact join_lt (by omega) (power_lt c s.dq (by omega))

/-- Modulo the first prime, lowering is the power by the exponent of that prime. -/
theorem Sound.lower_modEq_p (h : k.Sound s) (c : Nat) : k.lower c ≡ c ^ s.dp [MOD s.p] := by
  have hp := h.one_lt_p
  rw [h.lower_eq]
  refine (join_modEq (by omega) h.inverse).trans ?_
  rw [power_eq]
  exact Nat.mod_modEq _ _

/-- Modulo the second prime, lowering is the power by the exponent of that prime. -/
theorem Sound.lower_modEq_q (h : k.Sound s) (c : Nat) : k.lower c ≡ c ^ s.dq [MOD s.q] := by
  rw [h.lower_eq, power_eq c s.dq]
  exact (Nat.add_mul_modulus_modEq_iff.mpr rfl).trans (Nat.mod_modEq _ _)

/-- Lowering modulo one of the primes what was raised modulo the modulus. -/
theorem raise_pow_modEq {p d : Nat} (hp : p.Prime) (hdvd : p ∣ k.modulus)
    (h : k.privateExponent * k.exponent % (p - 1) = 1) (hd : d = k.privateExponent % (p - 1)) (m : Nat) :
    k.raise m ^ d ≡ m [MOD p] := by
  have hraise : k.raise m ≡ m ^ k.exponent [MOD p] := by
    rw [PublicKey.raise, power_eq]
    exact (Nat.mod_modEq _ _).of_dvd hdvd
  have hexp : k.exponent * d % (p - 1) = 1 := by rw [hd, Nat.mul_mod_mod, mul_comm, h]
  refine (hraise.pow d).trans ?_
  rw [← pow_mul]
  exact pow_modEq_self hp hexp m

/-- Under a key whose primes are primes, lowering undoes raising. -/
theorem Sound.lower_raise (h : k.Sound s) (hprime : ∀ p ∈ k.primes, p.Prime) {m : Nat} (hm : m < k.modulus) :
    k.lower (k.raise m) = m := by
  have hp : s.p.Prime := hprime s.p (by simp [h.primes])
  have hq : s.q.Prime := hprime s.q (by simp [h.primes])
  have hcop : Nat.Coprime s.p s.q :=
    (Nat.coprime_of_mul_modEq_one s.qInverse h.inverse).symm
  have hdvd_p : s.p ∣ k.modulus := Dvd.intro _ h.product
  have hdvd_q : s.q ∣ k.modulus := Dvd.intro_left _ h.product
  have hmod_p := (h.lower_modEq_p _).trans (raise_pow_modEq hp hdvd_p h.exponents_p h.dp m)
  have hmod_q := (h.lower_modEq_q _).trans (raise_pow_modEq hq hdvd_q h.exponents_q h.dq m)
  have hmod : k.lower (k.raise m) ≡ m [MOD k.modulus] := by
    rw [← h.product]
    exact (Nat.modEq_and_modEq_iff_modEq_mul hcop).mp ⟨hmod_p, hmod_q⟩
  exact Nat.ModEq.eq_of_lt_of_lt hmod (h.lower_lt _) hm

end PrivateKey

end Rsa

end EnvelopeLog
