import EnvelopeLog.Cipher.Aes

/-!
# The cipher by numbers

The bytes that the cipher computes with stand for natural numbers below 256, and the numbers of its results are computed from those
of its arguments: doubles, products, inverses and substitutes of bytes (`toNat_substitute`), sums, shifted rows and mixed columns of
blocks, and so encrypted blocks (`numbers_encrypt`). The kernel is quick with numbers and slow with bytes.
-/

namespace EnvelopeLog.Aes

/-! ## The field of 256 elements

The functions stand here in place of the operators because the kernel computes them without unfolding any instance. -/

/-- The number of a doubled byte. -/
def doubled (n : Nat) : Nat := Nat.xor (Nat.mod (Nat.mul 2 n) 256) (Nat.mul (Nat.div n 128) 27)

/-- The next number on the way to a product, by a digit of the first factor. -/
def step (m n p i : Nat) : Nat := Nat.xor (doubled p) (Nat.mul (Nat.mod (Nat.shiftRight m i) 2) n)

/-- The number of a product of bytes. -/
def product (m n : Nat) : Nat :=
  let step := step m n
  step (step (step (step (step (step (step (step 0 7) 6) 5) 4) 3) 2) 1) 0

/-- The number of a product of powers, after so many further squarings. -/
def powers : Nat → Nat → Nat → Nat
  | 0, p, _ => p
  | k + 1, p, s => powers k (product p (product s s)) (product s s)

/-- The number of the inverse of a byte. -/
def inverted (n : Nat) : Nat := powers 6 (product n n) (product n n)

/-- Doubling a byte is doubling its number. -/
theorem toNat_double (b : UInt8) : (double b).toNat = doubled b.toNat := by
  have hall : ∀ n < 256, (double (UInt8.ofNat n)).toNat = doubled n := by decide +kernel
  have hb := hall b.toNat b.toNat_lt
  rwa [UInt8.ofNat_toNat] at hb

theorem toNat_digit (b : UInt8) {i : Nat} (hi : i < 8) : ((b >>> UInt8.ofNat i) &&& 1).toNat = (b.toNat >>> i) % 2 := by
  have hplace : (UInt8.ofNat i).toNat % 8 = i := by
    rw [UInt8.toNat_ofNat']
    omega
  rw [UInt8.toNat_and, UInt8.toNat_shiftRight, hplace]
  exact Nat.and_one_is_mod _

theorem toNat_step (a b p : UInt8) {i : Nat} (hi : i < 8) :
    (double p ^^^ (if (a >>> UInt8.ofNat i) &&& 1 = 0 then 0 else b)).toNat = step a.toNat b.toNat p.toNat i := by
  have hdigit := toNat_digit a hi
  have hadded : (if (a >>> UInt8.ofNat i) &&& 1 = 0 then 0 else b).toNat = (a.toNat >>> i) % 2 * b.toNat := by
    rw [← hdigit]
    split
    · rename_i hzero
      rw [hzero]
      simp
    · rename_i hone
      have hne : ((a >>> UInt8.ofNat i) &&& 1).toNat ≠ 0 := fun h => hone (UInt8.toNat_inj.mp h)
      rw [show ((a >>> UInt8.ofNat i) &&& 1).toNat = 1 by omega, Nat.one_mul]
  rw [UInt8.toNat_xor, toNat_double, hadded]
  rfl

/-- The product of bytes is that of their numbers. -/
theorem toNat_times (a b : UInt8) : (times a b).toNat = product a.toNat b.toNat := by
  have hfold (digits : List Nat) (hdigits : ∀ i ∈ digits, i < 8) (p : UInt8) :
      ((digits.map UInt8.ofNat).foldl (fun p i => double p ^^^ (if (a >>> i) &&& 1 = 0 then 0 else b)) p).toNat =
        digits.foldl (step a.toNat b.toNat) p.toNat := by
    induction digits generalizing p with
    | nil => rfl
    | cons i digits ih =>
      obtain ⟨hi, hdigits⟩ := List.forall_mem_cons.mp hdigits
      rw [List.map_cons, List.foldl_cons, List.foldl_cons, ih hdigits, toNat_step a b p hi]
  exact hfold [7, 6, 5, 4, 3, 2, 1, 0] (by decide) 0

/-- The inverse of a byte is that of its number. -/
theorem toNat_invert (b : UInt8) : (invert b).toNat = inverted b.toNat := by
  simp [invert, inverted, powers, List.range, List.range.loop, toNat_times]

/-- The number of an inverse after the affine map. -/
def mapped (n : Nat) : Nat :=
  let turned (k : Nat) : Nat := Nat.lor (Nat.mod (Nat.shiftLeft n k) 256) (Nat.shiftRight n (8 - k))
  Nat.xor (Nat.xor (Nat.xor (Nat.xor (Nat.xor n (turned 1)) (turned 2)) (turned 3)) (turned 4)) 0x63

/-- The number of the substitute of a byte. -/
def substituted (n : Nat) : Nat := mapped (inverted n)

/-- What a byte is substituted by is what its number is substituted by. -/
theorem toNat_substitute (b : UInt8) : (substitute b).toNat = substituted b.toNat := by
  have hget (f : Fin 256 → UInt8) (i : Fin 256) : (Vector.ofFn f).get i = f i := by
    change (Vector.ofFn f)[i.val] = f i
    rw [Vector.getElem_ofFn]
  have hall : ∀ n < 256, (UInt8.ofNat n ^^^ rotate (UInt8.ofNat n) 1 ^^^ rotate (UInt8.ofNat n) 2 ^^^
      rotate (UInt8.ofNat n) 3 ^^^ rotate (UInt8.ofNat n) 4 ^^^ 0x63).toNat = mapped n := by decide +kernel
  have hmapped := hall (invert b).toNat (invert b).toNat_lt
  rw [UInt8.ofNat_toNat] at hmapped
  rw [substitute, substitution, hget, UInt8.ofNat_toNat, hmapped, toNat_invert, substituted]

/-- Substitution may be computed on numbers. -/
theorem substitute_eq : substitute = fun b => UInt8.ofNat (substituted b.toNat) := by
  funext b
  rw [← toNat_substitute, UInt8.ofNat_toNat]

/-! ## Blocks -/

/-- The numbers of the bytes of a block. -/
def numbers (s : Block) : List Nat := s.toList.map UInt8.toNat

theorem getD_numbers (s : Block) (i : Nat) : (numbers s).getD i 0 = (s.toArray.getD i 0).toNat := by
  rw [numbers, List.getD_eq_getElem?_getD, List.getElem?_map, Array.getD_eq_getD_getElem?, Vector.toList,
    Array.getElem?_toList]
  exact Option.getD_map UInt8.toNat 0 s.toArray[i]?

theorem numbers_ofFn {f : Fin 16 → UInt8} {g : Nat → Nat} (h : ∀ i, (f i).toNat = g i.val) :
    numbers (Vector.ofFn f) = (List.range 16).map g := by
  refine List.ext_getElem (by simp [numbers]) fun i _ _ => ?_
  simp [numbers, h]

/-- The numbers of the sum of two blocks. -/
def addNumbers (s t : List Nat) : List Nat := List.zipWith Nat.xor s t

/-- The numbers of a block with shifted rows. -/
def shiftNumbers (s : List Nat) : List Nat := (List.range 16).map fun i => s.getD ((i + 4 * (i % 4)) % 16) 0

/-- The numbers of a block with mixed columns. -/
def mixNumbers (s : List Nat) : List Nat := (List.range 16).map fun i =>
  let entry (k : Nat) : Nat := s.getD (4 * (i / 4) + (i + k) % 4) 0
  Nat.xor (Nat.xor (Nat.xor (Nat.xor (doubled (entry 0)) (doubled (entry 1))) (entry 1)) (entry 2)) (entry 3)

/-- The numbers of a block after the rounds that round keys give. -/
def roundNumbers (s : List Nat) : List Block → List Nat
  | [] => s
  | [last] => addNumbers (shiftNumbers (s.map substituted)) (numbers last)
  | key :: keys => roundNumbers (addNumbers (mixNumbers (shiftNumbers (s.map substituted))) (numbers key)) keys

theorem numbers_add (s t : Block) : numbers (add s t) = addNumbers (numbers s) (numbers t) := by
  rw [numbers, add, Vector.toList_zipWith, List.map_zipWith, addNumbers, numbers, numbers, List.zipWith_map]
  rfl

theorem numbers_substitute (s : Block) : numbers (s.map substitute) = (numbers s).map substituted := by
  rw [numbers, Vector.toList_map, List.map_map, numbers, List.map_map]
  exact List.map_congr_left fun b _ => toNat_substitute b

theorem numbers_shiftRows (s : Block) : numbers (shiftRows s) = shiftNumbers (numbers s) := by
  refine numbers_ofFn fun i => ?_
  rw [getD_numbers]
  simp [Vector.get, Nat.mod_lt]

theorem numbers_mixColumns (s : Block) : numbers (mixColumns s) = mixNumbers (numbers s) := by
  refine numbers_ofFn fun i => ?_
  simp only [getD_numbers, UInt8.toNat_xor, toNat_double]
  rfl

/-- The numbers of an encrypted block. -/
def encryptNumbers (keys : List Block) (s : List Nat) : List Nat :=
  match keys with
  | [] => s
  | first :: rest => roundNumbers (addNumbers s (numbers first)) rest

/-- The rounds may be computed on numbers. -/
theorem numbers_rounds (s : Block) (keys : List Block) : numbers (rounds s keys) = roundNumbers (numbers s) keys := by
  fun_induction rounds s keys with
  | case1 => rfl
  | case2 => rw [roundNumbers, numbers_add, numbers_shiftRows, numbers_substitute]
  | case3 s key keys h ih =>
    rw [ih, roundNumbers, numbers_add, numbers_mixColumns, numbers_shiftRows, numbers_substitute]
    exact h

/-- A block is encrypted by numbers. -/
theorem numbers_encrypt (keys : List Block) (s : Block) : numbers (encrypt keys s) = encryptNumbers keys (numbers s) := by
  cases keys with
  | nil => rfl
  | cons first rest => rw [encrypt, numbers_rounds, numbers_add, encryptNumbers]

end EnvelopeLog.Aes
