import EnvelopeLog.Cipher.Gcm
import Mathlib.FieldTheory.Finite.Extension

/-!
# The field in which tags are computed

Elements are read as polynomials over two elements at a point of a ring of characteristic two (`valueAt`). Where the point
is a root of the modulus, sums go to sums and products to products (`valueAt_times`). The modulus is irreducible, by Rabin's
test, whose two powers are computed with the product itself (`irreducible_modulus`). So the elements are a field, and a product
with anything but zero tells its other factor (`times_left_injective`).
-/

namespace EnvelopeLog.Gcm

open Polynomial

/-! ## Elements at a point -/

section Value

variable {R : Type*} [CommRing R]

/-- The polynomial whose coefficients are the bits of an element, from the highest bit on, at a point. -/
def valueAt (r : R) (u : Element) : R := ∑ i ∈ Finset.range 128, if u.getLsbD i then r ^ (127 - i) else 0

theorem valueAt_zero (r : R) : valueAt r 0 = 0 := by
  simp [valueAt]

/-- A homomorphism carries the value at a point to the value at the point's image. -/
theorem map_valueAt {S : Type*} [CommRing S] (φ : R →+* S) (r : R) (u : Element) :
    φ (valueAt r u) = valueAt (φ r) u := by
  simp only [valueAt, map_sum, apply_ite φ, map_pow, map_zero]

/-- A power of the point, as an element. -/
theorem valueAt_twoPow (r : R) {i : Nat} (hi : i < 128) : valueAt r (BitVec.twoPow 128 i) = r ^ (127 - i) := by
  rw [valueAt, Finset.sum_eq_single i]
  · simp [hi]
  · intro j _ hne
    rw [BitVec.getLsbD_twoPow, decide_eq_false (Ne.symm hne), Bool.and_false]
    rfl
  · simp [hi]

variable [CharP R 2]

/-- In characteristic two the sum of values is the value of the exclusive or. -/
theorem valueAt_xor (r : R) (u v : Element) : valueAt r (u ^^^ v) = valueAt r u + valueAt r v := by
  rw [valueAt, valueAt, valueAt, ← Finset.sum_add_distrib]
  refine Finset.sum_congr rfl fun i _ => ?_
  cases hu : u.getLsbD i <;> cases hv : v.getLsbD i <;> simp [hu, hv, CharTwo.add_self_eq_zero]

variable {r : R} (hr : r ^ 128 = r ^ 7 + r ^ 2 + r + 1)

include hr in
theorem valueAt_timesX (v : Element) : valueAt r (timesX v) = r * valueAt r v := by
  have hshift : valueAt r (v >>> 1) = ∑ i ∈ Finset.range 127, if v.getLsbD (i + 1) then r ^ (127 - i) else 0 := by
    rw [valueAt, Finset.sum_range_succ]
    simp [Nat.add_comm 1]
  have hreduced : valueAt r (0xe1#128 <<< 120) = r ^ 128 := by
    have hbits : (0xe1#128 <<< 120) = BitVec.twoPow 128 120 ^^^ BitVec.twoPow 128 125 ^^^ BitVec.twoPow 128 126 ^^^
        BitVec.twoPow 128 127 := by decide
    rw [hbits]
    simp only [valueAt_xor, valueAt_twoPow r (show 120 < 128 by decide),
      valueAt_twoPow r (show 125 < 128 by decide), valueAt_twoPow r (show 126 < 128 by decide),
      valueAt_twoPow r (show 127 < 128 by decide), hr]
    simp
  have hrest : (∑ i ∈ Finset.range 127, if v.getLsbD (i + 1) then r ^ (127 - i) else 0) =
      r * ∑ i ∈ Finset.range 127, if v.getLsbD (i + 1) then r ^ (127 - (i + 1)) else 0 := by
    rw [Finset.mul_sum]
    refine Finset.sum_congr rfl fun i hi => ?_
    have hpow : 127 - i = 127 - (i + 1) + 1 := by have := Finset.mem_range.mp hi; omega
    rw [mul_ite, mul_zero, ← pow_succ', ← hpow]
  have hvalue : valueAt r v = (∑ i ∈ Finset.range 127, if v.getLsbD (i + 1) then r ^ (127 - (i + 1)) else 0) +
      if v.getLsbD 0 then r ^ 127 else 0 := by
    rw [valueAt, Finset.sum_range_succ']
  rw [timesX, valueAt_xor, hshift, hrest, hvalue, mul_add]
  congr 1
  split
  · rw [hreduced, ← pow_succ']
  · rw [mul_zero]
    exact valueAt_zero r

include hr in
/-- A product is computed by Horner's scheme. -/
theorem valueAt_times (u v : Element) : valueAt r (times u v) = valueAt r u * valueAt r v := by
  have hhorner (n : Nat) :
      valueAt r ((List.range n).foldl (fun p i => timesX p ^^^ (if u.getLsbD i then v else 0#128)) 0#128) =
        (∑ i ∈ Finset.range n, if u.getLsbD i then r ^ (n - 1 - i) else 0) * valueAt r v := by
    induction n with
    | zero => simpa using valueAt_zero r
    | succ n ih =>
      have hsum : (∑ i ∈ Finset.range n, if u.getLsbD i then r ^ (n + 1 - 1 - i) else 0) =
          r * ∑ i ∈ Finset.range n, if u.getLsbD i then r ^ (n - 1 - i) else 0 := by
        rw [Finset.mul_sum]
        refine Finset.sum_congr rfl fun i hi => ?_
        have hpow : n + 1 - 1 - i = n - 1 - i + 1 := by have := Finset.mem_range.mp hi; omega
        rw [mul_ite, mul_zero, ← pow_succ', ← hpow]
      rw [List.range_succ, List.foldl_append, List.foldl_cons, List.foldl_nil, valueAt_xor,
        valueAt_timesX hr, ih, Finset.sum_range_succ, hsum, add_mul, mul_assoc]
      congr 1
      split
      · simp
      · rw [zero_mul]
        exact valueAt_zero r
  exact hhorner 128

end Value

/-! ## The modulus -/

/-- The polynomial modulo which elements are multiplied. -/
@[irreducible] noncomputable def modulus : (ZMod 2)[X] := X ^ 128 + X ^ 7 + X ^ 2 + X + 1

/-- The modulus begins with the 128th power. -/
theorem monic_modulus : modulus.Monic := by
  unfold modulus
  monicity!

theorem natDegree_modulus : modulus.natDegree = 128 := by
  unfold modulus
  compute_degree!

/-- An element has fewer coefficients than the modulus. -/
theorem natDegree_value_lt (u : Element) : (valueAt (X : (ZMod 2)[X]) u).natDegree < modulus.natDegree := by
  rw [natDegree_modulus]
  refine Nat.lt_succ_of_le (natDegree_sum_le_of_forall_le _ _ fun i _ => ?_)
  split
  · rw [natDegree_X_pow]
    omega
  · simp

/-- The bits of an element are the coefficients of its polynomial, the last bit being that of the constant. -/
theorem coeff_value (u : Element) {i : Nat} (hi : i < 128) :
    (valueAt (X : (ZMod 2)[X]) u).coeff (127 - i) = if u.getLsbD i then 1 else 0 := by
  rw [valueAt, finsetSum_coeff, Finset.sum_eq_single i]
  · split <;> simp
  · intro j hj hne
    have hj := Finset.mem_range.mp hj
    split
    · rw [coeff_X_pow, if_neg (by omega)]
    · rw [coeff_zero]
  · simp [hi]

/-- Only zero is divisible by the modulus. -/
theorem eq_zero_of_modulus_dvd {u : Element} (h : modulus ∣ valueAt X u) : u = 0 := by
  have hzero := eq_zero_of_dvd_of_natDegree_lt h (natDegree_value_lt u)
  refine BitVec.eq_of_getLsbD_eq fun i hi => ?_
  have hcoeff := coeff_value u hi
  rw [hzero, coeff_zero] at hcoeff
  cases hbit : u.getLsbD i with
  | false => simp
  | true => simp [hbit] at hcoeff

/-- A root of the modulus has the power by which products are reduced. -/
theorem pow_of_root {R : Type*} [CommRing R] [CharP R 2] [Algebra (ZMod 2) R] {r : R} (h : aeval r modulus = 0) :
    r ^ 128 = r ^ 7 + r ^ 2 + r + 1 := by
  unfold modulus at h
  simp only [map_add, map_pow, aeval_X, map_one] at h
  rw [← CharTwo.add_eq_zero]
  linear_combination h

/-! ## Products by numbers

The functions stand here in place of the operators because the kernel computes them without unfolding any instance. -/

/-- The next number on the way to a product, by a digit of the first factor. -/
def step (m n p i : Nat) : Nat :=
  Nat.xor (Nat.xor (Nat.shiftRight p 1) (Nat.mul (Nat.mod p 2) 0xe1000000000000000000000000000000))
    (Nat.mul (Nat.mod (Nat.shiftRight m i) 2) n)

/-- The number of a product of elements. -/
def product (m n : Nat) : Nat := (List.range 128).foldl (step m n) 0

theorem toNat_digit (u v : Element) (i : Nat) :
    (if u.getLsbD i then v else 0#128).toNat = (u.toNat >>> i) % 2 * v.toNat := by
  have hbit : u.getLsbD i = decide ((u.toNat >>> i) % 2 = 1) := by
    rw [← BitVec.testBit_toNat, Nat.testBit_eq_decide_div_mod_eq, Nat.shiftRight_eq_div_pow]
  rcases Nat.mod_two_eq_zero_or_one (u.toNat >>> i) with h | h <;> simp [hbit, h]

/-- The product of elements is that of their numbers. -/
theorem toNat_times (u v : Element) : (times u v).toNat = product u.toNat v.toNat := by
  have hfold (digits : List Nat) (p : Element) :
      (digits.foldl (fun p i => timesX p ^^^ (if u.getLsbD i then v else 0#128)) p).toNat =
        digits.foldl (step u.toNat v.toNat) p.toNat := by
    induction digits generalizing p with
    | nil => rfl
    | cons i digits ih =>
      rw [List.foldl_cons, List.foldl_cons, ih, timesX, BitVec.toNat_xor, BitVec.toNat_xor, toNat_digit, toNat_digit,
        BitVec.toNat_ushiftRight]
      rfl
  exact hfold (List.range 128) 0#128

/-! ## Rabin's test -/

section

open AdjoinRoot (root)

variable {f : (ZMod 2)[X]} [Fact (Irreducible f)]

instance charP_adjoinRoot : CharP (AdjoinRoot f) 2 :=
  charP_of_injective_algebraMap (algebraMap (ZMod 2) (AdjoinRoot f)).injective 2

/-- At a root of the modulus the 128th power is that of the lower terms. -/
theorem root_pow (hf : f ∣ modulus) : root f ^ 128 = root f ^ 7 + root f ^ 2 + root f + 1 := by
  refine pow_of_root ?_
  rwa [AdjoinRoot.aeval_eq, AdjoinRoot.mk_eq_zero]

/-- The element that has the value of the point at the point. -/
def pointElement : Element := BitVec.twoPow 128 126

/-- The element that stands for the root has the root as its value. -/
theorem valueAt_pointElement : valueAt (root f) pointElement = root f := by
  rw [pointElement, valueAt_twoPow _ (by decide), pow_one]

/-- An element squared so many times. -/
def squared (u : Element) : Nat → Element
  | 0 => u
  | n + 1 => times (squared u n) (squared u n)

theorem squared_add (u : Element) (m n : Nat) : squared u (m + n) = squared (squared u m) n := by
  induction n with
  | zero => rfl
  | succ n ih => rw [← Nat.add_assoc, squared, squared, ih]

/-- The number of an element squared so many times. -/
def squaredNumber (m : Nat) : Nat → Nat
  | 0 => m
  | n + 1 => product (squaredNumber m n) (squaredNumber m n)

/-- Squaring an element again and again is squaring its number. -/
theorem toNat_squared (u : Element) (n : Nat) : (squared u n).toNat = squaredNumber u.toNat n := by
  induction n with
  | zero => rfl
  | succ n ih => rw [squared, squaredNumber, toNat_times, ih]

/-- Squaring again and again raises the root to a power of two. -/
theorem valueAt_squared (hf : f ∣ modulus) (n : Nat) :
    valueAt (root f) (squared pointElement n) = root f ^ 2 ^ n := by
  induction n with
  | zero => rw [squared, valueAt_pointElement, pow_zero, pow_one]
  | succ n ih => rw [squared, valueAt_times (root_pow hf), ih, ← pow_add, pow_succ, mul_two]

/-- The degree of an irreducible polynomial divides a number exactly if its root comes back after as many squarings. -/
theorem natDegree_dvd_iff (n : Nat) : f.natDegree ∣ n ↔ root f ^ 2 ^ n = root f := by
  have hf : Irreducible f := Fact.out
  rw [hf.natDegree_dvd_iff_dvd_X_pow_card_pow_sub_X, Nat.card_zmod, ← AdjoinRoot.mk_eq_zero, map_sub, map_pow,
    AdjoinRoot.mk_X, sub_eq_zero]

/-- The point squared 64 times. -/
def halfway : Element := 0x6f9945a9e519a7229d4c1ad657f8a686

/-- The inverse of the difference between the point squared 64 times and the point. -/
def differenceInverse : Element := 0x180da934bf53158251c13dbb149f5279

/-- By 64 squarings the point goes half its way, which differs from the point by something that has an inverse, and by 64 more it
comes back. -/
theorem way_of_point :
    squaredNumber pointElement.toNat 64 = halfway.toNat ∧ squaredNumber halfway.toNat 64 = pointElement.toNat ∧
      times (halfway ^^^ pointElement) differenceInverse = BitVec.twoPow 128 127 := by
  decide +kernel

theorem squared_half : squared pointElement 64 = halfway := by
  rw [← BitVec.toNat_inj, toNat_squared, way_of_point.1]

/-- The root squared 128 times is the root again. -/
theorem squared_all : squared pointElement 128 = pointElement := by
  rw [show 128 = 64 + 64 from rfl, squared_add, squared_half, ← BitVec.toNat_inj, toNat_squared, way_of_point.2.1]

/-- No root of the modulus comes back after 64 squarings. -/
theorem not_natDegree_dvd_half (hf : f ∣ modulus) : ¬f.natDegree ∣ 64 := by
  intro hdvd
  have hzero : valueAt (root f) (halfway ^^^ pointElement) = 0 := by
    rw [← squared_half, valueAt_xor, valueAt_squared hf, (natDegree_dvd_iff 64).mp hdvd, valueAt_pointElement,
      CharTwo.add_self_eq_zero]
  have hone := valueAt_times (root_pow hf) (halfway ^^^ pointElement) differenceInverse
  rw [way_of_point.2.2, hzero, zero_mul, valueAt_twoPow _ (by decide), pow_zero] at hone
  exact one_ne_zero hone

/-- A factor of the modulus has a degree that divides 128, but does not divide 64. -/
theorem half_lt_natDegree (hf : f ∣ modulus) : 64 < f.natDegree := by
  by_contra hsmall
  have hall : f.natDegree ∣ 2 ^ 7 :=
    (natDegree_dvd_iff 128).mpr (by rw [← valueAt_squared hf, squared_all, valueAt_pointElement])
  obtain ⟨k, -, hpower⟩ := (Nat.dvd_prime_pow Nat.prime_two).mp hall
  have hk : k ≤ 6 := (Nat.pow_le_pow_iff_right (by decide)).mp (show 2 ^ k ≤ 2 ^ 6 by omega)
  exact not_natDegree_dvd_half hf (hpower ▸ pow_dvd_pow 2 hk)

end

/-- The modulus of the cipher is irreducible, so its residues are a field. -/
theorem irreducible_modulus : Irreducible modulus := by
  have hone : modulus ≠ 1 := by
    intro h
    have hdegree := natDegree_modulus
    rw [h, natDegree_one] at hdegree
    cases hdegree
  rw [monic_modulus.irreducible_iff_lt_natDegree_lt hone]
  intro q hq hrange hdvd
  rw [Finset.mem_Ioc, natDegree_modulus] at hrange
  obtain ⟨g, hg, hgq⟩ := exists_irreducible_of_natDegree_pos hrange.1
  have : Fact (Irreducible g) := ⟨hg⟩
  have hlarge := half_lt_natDegree (hgq.trans hdvd)
  have hsmall := natDegree_le_of_dvd hgq hq.ne_zero
  omega

/-! ## The field -/

instance fact_irreducible_modulus : Fact (Irreducible modulus) := ⟨irreducible_modulus⟩

/-- Different elements have different values at the root, as their polynomials are of a smaller degree than the modulus. -/
theorem valueAt_injective : Function.Injective (valueAt (AdjoinRoot.root modulus)) := by
  intro u v h
  have hsum : valueAt (AdjoinRoot.root modulus) (u ^^^ v) = 0 := by
    rw [valueAt_xor, h, CharTwo.add_self_eq_zero]
  rw [← AdjoinRoot.mk_X, ← map_valueAt, AdjoinRoot.mk_eq_zero] at hsum
  exact BitVec.xor_eq_zero_iff.mp (eq_zero_of_modulus_dvd hsum)

/-- A product with anything but zero tells its other factor. -/
theorem times_left_injective {v : Element} (hv : v ≠ 0) : Function.Injective (times · v) := by
  intro a b h
  have hroot := root_pow (dvd_refl modulus)
  have hvalue : valueAt (AdjoinRoot.root modulus) v ≠ 0 := fun hzero =>
    hv (valueAt_injective (hzero.trans (valueAt_zero _).symm))
  refine valueAt_injective (mul_right_cancel₀ hvalue ?_)
  rw [← valueAt_times hroot, ← valueAt_times hroot]
  exact congrArg _ h

end EnvelopeLog.Gcm
