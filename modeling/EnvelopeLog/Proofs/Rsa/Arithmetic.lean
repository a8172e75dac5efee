import EnvelopeLog.Rsa.Key
import Mathlib.FieldTheory.Finite.Basic
import Mathlib.Tactic.LinearCombination

/-!
# What the modular arithmetic computes

`power` is the remainder of a power, and `inverse?` finds an inverse of exactly the numbers that have one. Two facts on which
decryption rests are stated here for any numbers: an exponent that is one modulo `p - 1` changes nothing modulo a prime `p`,
and two remainders modulo numbers without common divisor are joined by the inverse of one modulo the other.
-/

namespace EnvelopeLog.Rsa

/-! ## Powers -/

/-- Repeated squaring computes the power. -/
theorem power_eq (b e n : Nat) : power b e n = b ^ e % n := by
  induction e using Nat.strong_induction_on generalizing b with
  | _ e ih =>
    by_cases he : e = 0
    · simp [power, he]
    · have hsplit : b ^ e = (b * b) ^ (e / 2) * b ^ (e % 2) := by
        rw [← pow_two, ← pow_mul, ← pow_add, Nat.div_add_mod]
      have hhalf : power (b * b % n) (e / 2) n = (b * b) ^ (e / 2) % n := by
        rw [ih (e / 2) (by omega), ← Nat.pow_mod]
      rw [power, if_neg he]
      simp only [hhalf]
      rcases Nat.mod_two_eq_zero_or_one e with h | h
      · rw [if_pos h, hsplit, h, pow_zero, mul_one]
      · rw [if_neg (by omega), hsplit, h, pow_one, Nat.mul_mod_mod, mul_comm]

theorem power_lt (b e : Nat) {n : Nat} (h : 0 < n) : power b e n < n := by
  rw [power_eq]
  exact Nat.mod_lt _ h

/-! ## Inverses -/

/-- The coefficient that the steps of the algorithm keep: what they hold are multiples of `a` modulo `m`. -/
theorem euclid_modEq {a m : Int} (r r' : Nat) (s s' : Int) (h : (r : Int) ≡ s * a [ZMOD m])
    (h' : (r' : Int) ≡ s' * a [ZMOD m]) : ((euclid r r' s s').1 : Int) ≡ (euclid r r' s s').2 * a [ZMOD m] := by
  induction r, r', s, s' using euclid.induct with
  | case1 r s s' => simpa [euclid] using h
  | case2 r r' s s' hr ih =>
    rw [euclid, if_neg hr]
    apply ih h'
    have hdiv : ((r % r' : Nat) : Int) = r - (r / r' : Nat) * r' := by
      have : (r' * (r / r') + r % r' : Int) = r := Int.mul_ediv_add_emod _ _
      push_cast
      linear_combination this
    have hq : ((r / r' : Nat) : Int) * r' ≡ (r / r' : Nat) * (s' * a) [ZMOD m] := h'.mul_left _
    rw [hdiv, sub_mul, mul_assoc]
    exact h.sub hq

/-- The algorithm ends with the greatest common divisor. -/
theorem euclid_gcd (r r' : Nat) (s s' : Int) : (euclid r r' s s').1 = Nat.gcd r r' := by
  induction r, r', s, s' using euclid.induct with
  | case1 r s s' => simp [euclid]
  | case2 r r' s s' hr ih => rw [euclid, if_neg hr, ih, Nat.gcd_comm r r', Nat.gcd_rec r' r, Nat.gcd_comm]

/-- What is found is an inverse. -/
theorem mul_inverse_modEq {a m i : Nat} (hm : 0 < m) (h : inverse? a m = some i) : a * i ≡ 1 [MOD m] := by
  unfold inverse? at h
  have hstep := euclid_modEq (a := a) (m := m) (a % m) m 1 0
    (by simpa using Int.mod_modEq (a : Int) m) (by simp [Int.ModEq])
  rcases heq : euclid (a % m) m 1 0 with ⟨divisor, s⟩
  simp only [heq] at h hstep
  split at h
  · rename_i hone
    have hi : ((s % m).toNat : Int) = s % m := Int.toNat_of_nonneg (Int.emod_nonneg s (by omega))
    have hmod : (1 : Int) ≡ s % m * a [ZMOD m] := by
      rw [hone] at hstep
      exact hstep.trans ((Int.mod_modEq s m).symm.mul_right _)
    cases h
    rw [← Int.natCast_modEq_iff]
    push_cast
    rw [hi, mul_comm]
    exact hmod.symm
  · cases h

/-- Only a number without common divisor has an inverse, and then it is found. -/
theorem inverse_isSome_iff (a m : Nat) : (inverse? a m).isSome ↔ Nat.Coprime a m := by
  unfold inverse?
  have hgcd := euclid_gcd (a % m) m 1 0
  rcases heq : euclid (a % m) m 1 0 with ⟨divisor, s⟩
  simp only [heq] at hgcd
  have hcop : Nat.Coprime a m ↔ divisor = 1 := by
    rw [hgcd, Nat.coprime_iff_gcd_eq_one, Nat.gcd_comm a m, Nat.gcd_rec m a]
  rw [hcop]
  by_cases h : divisor = 1 <;> simp [h]

/-! ## Primes and remainders -/

/-- An exponent that is one modulo `p - 1` changes nothing modulo a prime `p`. -/
theorem pow_modEq_self {p a : Nat} (hp : p.Prime) (ha : a % (p - 1) = 1) (m : Nat) : m ^ a ≡ m [MOD p] := by
  have := Fact.mk hp
  rw [← ZMod.natCast_eq_natCast_iff]
  push_cast
  have hsplit : a = (p - 1) * (a / (p - 1)) + 1 := by
    have := Nat.div_add_mod a (p - 1)
    omega
  by_cases hm : (m : ZMod p) = 0
  · rw [hsplit, hm, pow_succ, mul_zero]
  · rw [hsplit, pow_succ, pow_mul, ZMod.pow_card_sub_one_eq_one hm, one_pow, one_mul]

/-- Two remainders joined: the number has the first remainder modulo `p`, and `b` is left modulo `q`. -/
theorem join_modEq {p q i a b : Nat} (hp : 0 < p) (hi : q * i ≡ 1 [MOD p]) :
    b + (((a : Int) - b) * i % p).toNat * q ≡ a [MOD p] := by
  have hpos : 0 ≤ ((a : Int) - b) * i % p := Int.emod_nonneg _ (by omega)
  rw [← Int.natCast_modEq_iff] at hi ⊢
  push_cast at hi ⊢
  rw [Int.toNat_of_nonneg hpos]
  calc (b : Int) + ((a : Int) - b) * i % p * q
      ≡ b + ((a : Int) - b) * i * q [ZMOD p] := ((Int.mod_modEq _ _).mul_right _).add_left _
    _ = b + ((a : Int) - b) * (q * i) := by ring
    _ ≡ b + ((a : Int) - b) * 1 [ZMOD p] := (hi.mul_left _).add_left _
    _ = a := by ring

/-- Joined remainders stay below the product. -/
theorem join_lt {p q i a b : Nat} (hp : 0 < p) (hb : b < q) :
    b + (((a : Int) - b) * i % p).toNat * q < p * q := by
  have hlt : ((a : Int) - b) * i % p < p := Int.emod_lt_of_pos _ (by omega)
  have hle : (((a : Int) - b) * i % p).toNat + 1 ≤ p := by omega
  calc b + (((a : Int) - b) * i % p).toNat * q
      < q + (((a : Int) - b) * i % p).toNat * q := by omega
    _ = ((((a : Int) - b) * i % p).toNat + 1) * q := by ring
    _ ≤ p * q := Nat.mul_le_mul_right q hle

end EnvelopeLog.Rsa
