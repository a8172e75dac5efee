import EnvelopeLog.Proofs.Rsa.Arithmetic
import Mathlib.NumberTheory.LucasPrimality

/-!
# Numbers that powers show to be prime

A number is prime if the powers of some number tell so (Lucas): the power to the number less one is one, and no power to a
part of that is. The powers are those by repeated squaring, so the test can be run.
-/

namespace EnvelopeLog.Rsa

/-- A power is one modulo a number exactly if it is one among the residues. -/
theorem power_eq_one_iff {p : Nat} (hp : 1 < p) (a n : Nat) : power a n p = 1 ↔ (a : ZMod p) ^ n = 1 := by
  rw [power_eq, ← Nat.cast_pow, ← Nat.cast_one (R := ZMod p), ZMod.natCast_eq_natCast_iff', Nat.mod_eq_of_lt hp]

/-- A number whose powers tell so is prime; the factors are the primes that divide the number less one. -/
theorem prime_of_power {p : Nat} (hp : 1 < p) (a : Nat) (factors : List Nat)
    (hfactors : ∀ q : Nat, q.Prime → q ∣ p - 1 → q ∈ factors) (hone : power a (p - 1) p = 1)
    (hparts : ∀ q ∈ factors, power a ((p - 1) / q) p ≠ 1) : p.Prime := by
  refine lucas_primality p a ((power_eq_one_iff hp a _).mp hone) fun q hq hdvd => ?_
  rw [ne_eq, ← power_eq_one_iff hp]
  exact hparts q (hfactors q hq hdvd)

/-- The test for numbers of the form `3 * 2 ^ n + 1`, which take part in no product but by two and three. -/
theorem prime_of_power_three_two (a n : Nat) (hone : power a (3 * 2 ^ n) (3 * 2 ^ n + 1) = 1)
    (hparts : ∀ q ∈ [2, 3], power a (3 * 2 ^ n / q) (3 * 2 ^ n + 1) ≠ 1) : (3 * 2 ^ n + 1).Prime := by
  refine prime_of_power (by simp) a [2, 3] (fun q hq hdvd => ?_) hone hparts
  rw [Nat.add_sub_cancel] at hdvd
  rcases (Nat.Prime.dvd_mul hq).mp hdvd with h | h
  · simp [(Nat.prime_dvd_prime_iff_eq hq Nat.prime_three).mp h]
  · simp [(Nat.prime_dvd_prime_iff_eq hq Nat.prime_two).mp (hq.dvd_of_dvd_pow h)]

end EnvelopeLog.Rsa
