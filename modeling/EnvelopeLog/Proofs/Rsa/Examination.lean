import EnvelopeLog.Proofs.Rsa.Arithmetic
import EnvelopeLog.Rsa.Key

/-!
# What the examination of a key ascertains

A public key stands up to examination if it is `Proper` and no larger than allowed. Two numbers for primes make a private key
with a shortcut exactly if they are `Consistent` with the modulus and the exponents (`ofComponents_shortcut_iff`). On the
way no remainder by zero is taken, whatever the numbers are: where such a remainder is undefined, the examination and the
shortcut are defined all the same (`checkStrict_eq`, `shortcutStrict_eq`).
-/

namespace EnvelopeLog

/-- A result after a check is a result that the check lets through. -/
theorem ite_error_eq_ok_iff {α ε : Type} {c : Prop} [Decidable c] {e : ε} {x : Except ε α} {a : α} :
    (if c then .error e else x) = .ok a ↔ ¬c ∧ x = .ok a := by
  by_cases h : c <;> simp [h]

namespace Rsa

/-! ## Public keys -/

/-- What is examined of a public key besides its size. -/
structure PublicKey.Proper (k : PublicKey) : Prop where
  modulus_odd : k.modulus % 2 = 1
  exponent_lt : k.exponent < k.modulus
  exponent_odd : k.exponent % 2 = 1
  three_le : 3 ≤ k.exponent
  exponent_le : k.exponent ≤ 2 ^ 33 - 1

/-- A public key passes exactly if it is proper and not over the limit. -/
theorem PublicKey.check_eq_ok_iff {limit : Option Nat} {k : PublicKey} :
    k.check limit = .ok () ↔ (∀ most ∈ limit, bitLength k.modulus ≤ most) ∧ k.Proper := by
  have hlimit : (∀ most ∈ limit, bitLength k.modulus ≤ most) ↔ ¬limit.any (· < bitLength k.modulus) = true := by
    cases limit <;> simp
  rw [hlimit, check, ite_error_eq_ok_iff]
  refine and_congr_right fun _ => ?_
  simp only [ite_error_eq_ok_iff, and_true]
  constructor
  · rintro ⟨hlong, hmodulus, hodd, hsmall, hlarge⟩
    constructor <;> omega
  · rintro ⟨hmodulus, hlt, hodd, hthree, hle⟩
    omega

/-! ## Private keys -/

namespace PrivateKey

variable {k : PrivateKey} {s : Shortcut}

/-- What the examination of a private key ascertains. -/
theorem check_eq_ok_iff :
    k.check = .ok () ↔ k.toPublicKey.Proper ∧ (∀ p ∈ k.primes, 1 < p) ∧ k.product = k.modulus ∧
      ∀ p ∈ k.primes, k.privateExponent * k.exponent % (p - 1) = 1 := by
  have hpublic : k.toPublicKey.check none = .ok () ↔ k.toPublicKey.Proper := by
    rw [PublicKey.check_eq_ok_iff]
    simp
  rw [← hpublic, check]
  cases k.toPublicKey.check none with
  | error e => simp
  | ok _ =>
    simp only [ite_error_eq_ok_iff, List.any_eq_true, decide_eq_true_eq, not_exists, not_and, not_le, ne_eq, not_not,
      and_true, true_and]

/-- A key with a shortcut has two primes, of which the second has an inverse modulo the first. -/
theorem shortcut_eq_some (h : k.shortcut? = some s) :
    k.primes = [s.p, s.q] ∧ inverse? s.q s.p = some s.qInverse ∧
      s.dp = k.privateExponent % (s.p - 1) ∧ s.dq = k.privateExponent % (s.q - 1) := by
  unfold shortcut? at h
  split at h
  · rename_i p q hprimes
    obtain ⟨i, hi, rfl⟩ := Option.map_eq_some_iff.mp h
    exact ⟨hprimes, hi, rfl, rfl⟩
  · cases h

/-- A key that is made of components stood up to examination. -/
theorem check_of_ofComponents {n e d : Nat} {primes : List Nat} (h : ofComponents n e d primes = .ok k) :
    k.check = .ok () := by
  unfold ofComponents at h
  dsimp only at h
  split at h
  · split at h
    · split at h <;> cases h
      assumption
    · cases h
  · cases h
  · split at h <;> cases h
    assumption

/-- Of two primes a key is made exactly if it passes its check. -/
theorem ofComponents_two {n e d p q : Nat} :
    ofComponents n e d [p, q] = .ok k ↔
      k = { modulus := n, exponent := e, privateExponent := d, primes := [p, q] } ∧ k.check = .ok () := by
  unfold ofComponents
  dsimp only
  split
  · rename_i hcheck
    refine ⟨nofun, ?_⟩
    rintro ⟨rfl, hk⟩
    rw [hcheck] at hk
    cases hk
  · rename_i hcheck
    rw [Except.ok.injEq]
    exact ⟨fun h => ⟨h.symm, h ▸ hcheck⟩, fun h => h.1.symm⟩

end PrivateKey

/-! ## Numbers that belong together -/

/-- Whether a modulus, two exponents and two numbers for primes belong together. -/
structure Consistent (n e d p q : Nat) : Prop where
  modulus_odd : n % 2 = 1
  exponent_lt : e < n
  exponent_odd : e % 2 = 1
  three_le : 3 ≤ e
  exponent_le : e ≤ 2 ^ 33 - 1
  one_lt_p : 1 < p
  one_lt_q : 1 < q
  product : p * q = n
  exponents_p : d * e ≡ 1 [MOD p - 1]
  exponents_q : d * e ≡ 1 [MOD q - 1]
  invertible : ∃ i, q * i ≡ 1 [MOD p]

/-- In a consistent key the second prime has an inverse modulo the first one. -/
theorem Consistent.exists_inverse {n e d p q : Nat} (h : Consistent n e d p q) : ∃ i, i < p ∧ q * i ≡ 1 [MOD p] := by
  obtain ⟨i, hi⟩ := h.invertible
  have hp := h.one_lt_p
  exact ⟨i % p, Nat.mod_lt _ (by omega), ((Nat.mod_modEq i p).mul_left q).trans hi⟩

/-- The factors of an odd product are odd. -/
theorem odd_of_mul {p q : Nat} (h : p * q % 2 = 1) : p % 2 = 1 ∧ q % 2 = 1 := by
  rwa [← Nat.odd_iff, Nat.odd_mul, Nat.odd_iff, Nat.odd_iff] at h

/-- An odd number above one is three at least, so one is its own remainder modulo its predecessor. -/
theorem modEq_one_iff {a p : Nat} (hodd : p % 2 = 1) (hone : 1 < p) : a ≡ 1 [MOD p - 1] ↔ a % (p - 1) = 1 := by
  rw [Nat.ModEq, Nat.mod_eq_of_lt (show 1 < p - 1 by omega)]

/-- There is one inverse below the modulus. -/
theorem inverse_unique {a m i j : Nat} (hi : i < m) (himod : a * i ≡ 1 [MOD m]) (hj : j < m) (hjmod : a * j ≡ 1 [MOD m]) :
    i = j := by
  have hcop : Nat.gcd m a = 1 := (Nat.coprime_of_mul_modEq_one i himod).symm
  have heq : i ≡ j [MOD m] := Nat.ModEq.cancel_left_of_coprime hcop (himod.trans hjmod.symm)
  exact Nat.ModEq.eq_of_lt_of_lt heq hi hj

/-- What is found is the inverse below the modulus. -/
theorem inverse_eq_some_iff {a m i : Nat} (hm : 1 < m) : inverse? a m = some i ↔ i < m ∧ a * i ≡ 1 [MOD m] := by
  have hbelow {j : Nat} (hj : inverse? a m = some j) : j < m := by
    unfold inverse? at hj
    rcases heq : euclid (a % m) m 1 0 with ⟨divisor, s⟩
    simp only [heq] at hj
    split at hj <;> cases hj
    have hlt : s % m < m := Int.emod_lt_of_pos s (by omega)
    omega
  constructor
  · intro h
    exact ⟨hbelow h, mul_inverse_modEq (by omega) h⟩
  · rintro ⟨hlt, hmod⟩
    have hcop : Nat.Coprime a m := Nat.coprime_of_mul_modEq_one i hmod
    obtain ⟨j, hj⟩ := Option.isSome_iff_exists.mp ((inverse_isSome_iff a m).mpr hcop)
    rw [hj, inverse_unique hlt hmod (hbelow hj) (mul_inverse_modEq (by omega) hj)]

/-- Numbers make a private key with a shortcut exactly if they belong together, and the shortcut is made of the remainders of
the private exponent and the inverse. -/
theorem ofComponents_shortcut_iff {n e d p q : Nat} {k : PrivateKey} {s : Shortcut} :
    (PrivateKey.ofComponents n e d [p, q] = .ok k ∧ k.shortcut? = some s) ↔
      Consistent n e d p q ∧ k = { modulus := n, exponent := e, privateExponent := d, primes := [p, q] } ∧
        ∃ i, i < p ∧ q * i ≡ 1 [MOD p] ∧ s = ⟨p, q, d % (p - 1), d % (q - 1), i⟩ := by
  rw [PrivateKey.ofComponents_two, PrivateKey.check_eq_ok_iff]
  constructor
  · rintro ⟨⟨rfl, hproper, hone, hproduct, hexponents⟩, hs⟩
    obtain ⟨i, hi, rfl⟩ := Option.map_eq_some_iff.mp hs
    simp only [PrivateKey.product, List.foldl_cons, List.foldl_nil, one_mul, List.forall_mem_cons, List.not_mem_nil,
      false_implies, implies_true, and_true] at hone hproduct hexponents
    obtain ⟨hp, hq⟩ := hone
    obtain ⟨hmodulus, hlt, hexponent, hthree, hle⟩ := hproper
    obtain ⟨hp_odd, hq_odd⟩ := odd_of_mul (hproduct.symm ▸ hmodulus)
    obtain ⟨hbelow, hinverse⟩ := (inverse_eq_some_iff hp).mp hi
    exact ⟨⟨hmodulus, hlt, hexponent, hthree, hle, hp, hq, hproduct, (modEq_one_iff hp_odd hp).mpr hexponents.1,
      (modEq_one_iff hq_odd hq).mpr hexponents.2, i, hinverse⟩, rfl, i, hbelow, hinverse, rfl⟩
  · rintro ⟨h, rfl, i, hbelow, hinverse, rfl⟩
    obtain ⟨hp_odd, hq_odd⟩ := odd_of_mul (h.product.symm ▸ h.modulus_odd)
    refine ⟨⟨rfl, ⟨h.modulus_odd, h.exponent_lt, h.exponent_odd, h.three_le, h.exponent_le⟩, ?_, ?_, ?_⟩, ?_⟩
    · simp [h.one_lt_p, h.one_lt_q]
    · simp [PrivateKey.product, h.product]
    · simp [(modEq_one_iff hp_odd h.one_lt_p).mp h.exponents_p, (modEq_one_iff hq_odd h.one_lt_q).mp h.exponents_q]
    · exact Option.map_eq_some_iff.mpr ⟨i, (inverse_eq_some_iff h.one_lt_p).mpr ⟨hbelow, hinverse⟩, rfl⟩

/-! ## No remainder by zero -/

/-- The remainder of a division, if the divisor is not zero. -/
def remainder? (a m : Nat) : Option Nat := if m = 0 then none else some (a % m)

/-- The inverse modulo a number that is not zero, if there is one. -/
def inverseStrict? (a m : Nat) : Option (Option Nat) := if m = 0 then none else some (inverse? a m)

theorem remainder?_eq {m : Nat} (h : m ≠ 0) (a : Nat) : remainder? a m = some (a % m) := if_neg h

/-- Remainders by primes less one exist for primes that are more than one. -/
theorem mapM_remainder?_eq {primes : List Nat} (h : ∀ p ∈ primes, 1 < p) (a : Nat) :
    (primes.mapM fun p => remainder? a (p - 1)) = some (primes.map fun p => a % (p - 1)) := by
  induction primes with
  | nil => rfl
  | cons p primes ih =>
    obtain ⟨hp, hprimes⟩ := List.forall_mem_cons.mp h
    rw [List.mapM_cons, remainder?_eq (by omega), ih hprimes]
    rfl

namespace PrivateKey

/-- The examination of a private key where a remainder by zero is undefined. -/
def checkStrict (k : PrivateKey) : Option (Except Refusal Unit) :=
  match k.toPublicKey.check none with
  | .error e => some (.error e)
  | .ok () =>
    if k.primes.any (· ≤ 1) then some (.error .invalidPrime)
    else if k.product ≠ k.modulus then some (.error .invalidModulus)
    else
      (k.primes.mapM fun p => remainder? (k.privateExponent * k.exponent) (p - 1)).map fun remainders =>
        if remainders.any (· ≠ 1) then .error .invalidExponent else .ok ()

/-- The shortcut of a private key where a remainder by zero and an inverse modulo zero are undefined. -/
def shortcutStrict (k : PrivateKey) : Option (Option Shortcut) :=
  match k.primes with
  | [p, q] =>
    (remainder? k.privateExponent (p - 1)).bind fun dp =>
      (remainder? k.privateExponent (q - 1)).bind fun dq =>
        (inverseStrict? q p).map fun inverse => inverse.map fun i => ⟨p, q, dp, dq, i⟩
  | _ => some none

/-- No examination takes a remainder by zero. -/
theorem checkStrict_eq (k : PrivateKey) : k.checkStrict = some k.check := by
  unfold checkStrict check
  cases k.toPublicKey.check none with
  | error e => rfl
  | ok _ =>
    dsimp only
    split
    · rfl
    rename_i hone
    split
    · rfl
    have hprimes : ∀ p ∈ k.primes, 1 < p := by simpa using hone
    rw [mapM_remainder?_eq hprimes, Option.map_some, List.any_map]
    rfl

/-- No shortcut of a key that was examined takes a remainder by zero or an inverse modulo zero. -/
theorem shortcutStrict_eq {k : PrivateKey} (h : k.check = .ok ()) : k.shortcutStrict = some k.shortcut? := by
  obtain ⟨-, hprimes, -, -⟩ := check_eq_ok_iff.mp h
  unfold shortcutStrict shortcut?
  generalize k.primes = primes at hprimes
  match primes, hprimes with
  | [p, q], hprimes =>
    have hp : 1 < p := hprimes p (by simp)
    have hq : 1 < q := hprimes q (by simp)
    dsimp only
    rw [remainder?_eq (by omega), remainder?_eq (by omega), inverseStrict?, if_neg (by omega)]
    rfl
  | [], _ => rfl
  | [_], _ => rfl
  | _ :: _ :: _ :: _, _ => rfl

end PrivateKey

end Rsa

end EnvelopeLog
