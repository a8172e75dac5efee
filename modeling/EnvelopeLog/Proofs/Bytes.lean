import EnvelopeLog.Bytes
import Mathlib.Tactic.Ring

/-!
# Numbers, masks and texts as byte strings

Writing a number in a fixed width and reading it back are inverse to each other in either byte order, as long as the number
fits the width: a width of `n` bytes holds the numbers below `256 ^ n`, each exactly once. Big-endian bytes of one number differ
in zeros in front only, and the shortest have none that is superfluous. A mask that is long enough is undone by applying it again,
and the encoding of a text by reading it.
-/

namespace EnvelopeLog.Bytes

/-! ## Little-endian numbers -/

@[simp] theorem littleEndian_length (width n : Nat) : (littleEndian width n).length = width := by
  induction width generalizing n with
  | zero => rfl
  | succ width ih => simp [littleEndian, ih]

/-- Bytes spell a number below the power of 256 with as many digits. -/
theorem fromLittleEndian_lt (b : Bytes) : fromLittleEndian b < 256 ^ b.length := by
  induction b with
  | nil => simp [fromLittleEndian]
  | cons x b ih =>
    have hx := x.toNat_lt
    simp only [fromLittleEndian, List.length_cons, pow_succ]
    omega

/-- A number is read back modulo what its width can hold. -/
theorem fromLittleEndian_littleEndian (width n : Nat) :
    fromLittleEndian (littleEndian width n) = n % 256 ^ width := by
  induction width generalizing n with
  | zero => simp [littleEndian, fromLittleEndian, Nat.mod_one]
  | succ width ih =>
    have hmod : n % 256 ^ (width + 1) = n % 256 + 256 * (n / 256 % 256 ^ width) := by
      rw [pow_succ', Nat.mod_mul]
    simp only [littleEndian, fromLittleEndian, ih, hmod, UInt8.toNat_ofNat']

/-- The number that bytes spell, least significant byte first, is written as these bytes again. -/
theorem littleEndian_fromLittleEndian (b : Bytes) : littleEndian b.length (fromLittleEndian b) = b := by
  induction b with
  | nil => rfl
  | cons x b ih =>
    have hx := x.toNat_lt
    have hdiv : (x.toNat + 256 * fromLittleEndian b) / 256 = fromLittleEndian b := by omega
    have hbyte : UInt8.ofNat (x.toNat + 256 * fromLittleEndian b) = x := by
      apply UInt8.toNat_inj.mp
      rw [UInt8.toNat_ofNat']
      omega
    simp only [List.length_cons, fromLittleEndian, littleEndian, hdiv, hbyte, ih]

/-! ## Big-endian numbers -/

@[simp] theorem bigEndian_length (width n : Nat) : (bigEndian width n).length = width := by
  rw [bigEndian, List.length_reverse, littleEndian_length]

/-- Bytes spell a number below the power of 256 with as many digits, also with the most significant byte first. -/
theorem fromBigEndian_lt (b : Bytes) : fromBigEndian b < 256 ^ b.length := by
  have := fromLittleEndian_lt b.reverse
  rwa [List.length_reverse] at this

/-- A number that fits its width is read back. -/
theorem fromBigEndian_bigEndian {width n : Nat} (h : n < 256 ^ width) : fromBigEndian (bigEndian width n) = n := by
  rw [fromBigEndian, bigEndian, List.reverse_reverse, fromLittleEndian_littleEndian, Nat.mod_eq_of_lt h]

/-- The number that bytes spell, most significant byte first, is written as these bytes again. -/
theorem bigEndian_fromBigEndian (b : Bytes) : bigEndian b.length (fromBigEndian b) = b := by
  rw [bigEndian, fromBigEndian, ← List.length_reverse, littleEndian_fromLittleEndian, List.reverse_reverse]

/-- Bytes that follow others count by the power of 256 with as many digits as there are before them. -/
theorem fromLittleEndian_append (a b : Bytes) :
    fromLittleEndian (a ++ b) = fromLittleEndian a + 256 ^ a.length * fromLittleEndian b := by
  induction a with
  | nil => simp [fromLittleEndian]
  | cons x a ih =>
    simp only [List.cons_append, fromLittleEndian, ih, List.length_cons]
    ring

/-- The first byte counts by the power of 256 with as many digits as there are behind it. -/
theorem fromBigEndian_cons (x : UInt8) (b : Bytes) :
    fromBigEndian (x :: b) = x.toNat * 256 ^ b.length + fromBigEndian b := by
  rw [fromBigEndian, List.reverse_cons, fromLittleEndian_append, List.length_reverse, fromBigEndian]
  simp only [fromLittleEndian]
  ring

/-- A leading zero byte does not count. -/
theorem fromBigEndian_zero_cons (b : Bytes) : fromBigEndian (0 :: b) = fromBigEndian b := by
  rw [fromBigEndian_cons]
  simp

/-- A positive number fits the width of its shortest form and no smaller one. -/
theorem pow_widthOf_le {n : Nat} (h : n ≠ 0) : 256 ^ (widthOf n - 1) ≤ n := by
  have hpow : 256 ^ (widthOf n - 1) = 2 ^ (8 * (n.log2 / 8)) := by
    rw [widthOf, Nat.add_sub_cancel, pow_mul, show 2 ^ 8 = 256 from rfl]
  rw [hpow]
  exact le_trans (Nat.pow_le_pow_right (by omega) (Nat.mul_div_le _ _)) (Nat.log2_self_le h)

/-- A number fits its own width. -/
theorem lt_pow_widthOf (n : Nat) : n < 256 ^ widthOf n := by
  have hpow : 256 ^ widthOf n = 2 ^ (8 * (n.log2 / 8 + 1)) := by
    rw [widthOf, pow_mul, show 2 ^ 8 = 256 from rfl]
  rw [hpow]
  exact lt_of_lt_of_le Nat.lt_log2_self (Nat.pow_le_pow_right (by omega) (by omega))

/-- A number between two neighbouring powers of 256 has the greater exponent as its width. -/
theorem widthOf_eq {n width : Nat} (hlow : 256 ^ width ≤ n) (hhigh : n < 256 ^ (width + 1)) :
    widthOf n = width + 1 := by
  have hn : n ≠ 0 := by
    have := Nat.pow_pos (n := width) (show 0 < 256 by decide)
    omega
  have hle : widthOf n - 1 < width + 1 :=
    (Nat.pow_lt_pow_iff_right (by decide)).mp (lt_of_le_of_lt (pow_widthOf_le hn) hhigh)
  have hlt : width < widthOf n :=
    (Nat.pow_lt_pow_iff_right (by decide)).mp (lt_of_le_of_lt hlow (lt_pow_widthOf n))
  omega

/-! ## Zeros in front -/

/-- Whether no byte in front is superfluous: a zero in front is, unless it is the only byte and stands for the number zero. -/
def Shortest : Bytes → Prop
  | [] => False
  | x :: rest => x = 0 → rest = []

/-- The bytes without the zeros in front. -/
def significant (b : Bytes) : Bytes := b.dropWhile (· == 0)

theorem significant_zero_cons (b : Bytes) : significant (0 :: b) = significant b := by
  simp [significant]

theorem significant_cons {x : UInt8} (hx : x ≠ 0) (b : Bytes) : significant (x :: b) = x :: b := by
  simp [significant, hx]

/-- A first byte other than zero makes the number at least the power of 256 that it counts by. -/
theorem le_fromBigEndian_cons {x : UInt8} (hx : x ≠ 0) (b : Bytes) : 256 ^ b.length ≤ fromBigEndian (x :: b) := by
  have hpos : 1 ≤ x.toNat := by
    rw [Nat.one_le_iff_ne_zero]
    intro hzero
    exact hx (UInt8.toNat_inj.mp hzero)
  rw [fromBigEndian_cons]
  have := Nat.mul_le_mul_right (256 ^ b.length) hpos
  omega

/-- A number takes as many bytes as it is given in exactly if none of them is superfluous. -/
theorem widthOf_fromBigEndian_iff (x : UInt8) (rest : Bytes) :
    widthOf (fromBigEndian (x :: rest)) = rest.length + 1 ↔ (x = 0 → rest = []) := by
  by_cases hx : x = 0
  · subst hx
    rw [fromBigEndian_zero_cons]
    constructor
    · intro hwidth _
      by_contra hrest
      have hlength := List.length_pos_iff.mpr hrest
      by_cases hzero : fromBigEndian rest = 0
      · rw [hzero] at hwidth
        simp [widthOf] at hwidth
        exact hrest hwidth
      · have hle := pow_widthOf_le hzero
        rw [hwidth, Nat.add_sub_cancel] at hle
        exact absurd (fromBigEndian_lt rest) (Nat.not_lt.mpr hle)
    · intro hrest
      rw [hrest rfl]
      rfl
  · have hwidth := widthOf_eq (le_fromBigEndian_cons hx rest) (fromBigEndian_lt (x :: rest))
    exact ⟨fun _ h => absurd h hx, fun _ => hwidth⟩

/-- Bytes are the shortest form of their number exactly if none of them is superfluous. -/
theorem minimal_fromBigEndian_iff (b : Bytes) : minimal (fromBigEndian b) = b ↔ Shortest b := by
  cases b with
  | nil =>
    refine iff_of_false (fun h => ?_) id
    have hlength := congrArg List.length h
    simp [minimal, widthOf] at hlength
  | cons x rest =>
    rw [Shortest, ← widthOf_fromBigEndian_iff]
    constructor
    · intro h
      have hlength := congrArg List.length h
      rwa [minimal, bigEndian_length] at hlength
    · intro hwidth
      rw [minimal, hwidth]
      exact bigEndian_fromBigEndian (x :: rest)

/-- Zeros in front do not change the number. -/
theorem fromBigEndian_significant (b : Bytes) : fromBigEndian (significant b) = fromBigEndian b := by
  induction b with
  | nil => rfl
  | cons x b ih =>
    by_cases hx : x = 0
    · rw [hx, significant_zero_cons, ih, fromBigEndian_zero_cons]
    · rw [significant_cons hx]

/-- A number determines the bytes that it is given in, but for zeros in front. -/
theorem significant_eq (b : Bytes) :
    significant b = if fromBigEndian b = 0 then [] else minimal (fromBigEndian b) := by
  induction b with
  | nil => rfl
  | cons x b ih =>
    by_cases hx : x = 0
    · rw [hx, significant_zero_cons, fromBigEndian_zero_cons, ih]
    · have hne : fromBigEndian (x :: b) ≠ 0 := by
        have := le_fromBigEndian_cons hx b
        have := Nat.pow_pos (n := b.length) (show 0 < 256 by decide)
        omega
      rw [significant_cons hx, if_neg hne, (minimal_fromBigEndian_iff (x :: b)).mpr fun h => absurd h hx]

/-- Byte strings give one number exactly if they differ in zeros in front at most. -/
theorem fromBigEndian_eq_iff {b c : Bytes} : fromBigEndian b = fromBigEndian c ↔ significant b = significant c := by
  constructor
  · intro h
    rw [significant_eq, significant_eq, h]
  · intro h
    rw [← fromBigEndian_significant b, h, fromBigEndian_significant]

/-! ## Slices -/

@[simp] theorem slices_nil (n : Nat) : slices n [] = [] := by
  rw [slices]

/-- The first slice is what is taken off the front, and the others are those of the rest. -/
theorem slices_of_ne_nil {n : Nat} {b : Bytes} (hn : 0 < n) (hb : b ≠ []) :
    slices n b = b.take n :: slices n (b.drop n) := by
  obtain ⟨x, rest, rfl⟩ := List.exists_cons_of_ne_nil hb
  rw [slices, if_pos hn]

/-- The slices make up the bytes. -/
theorem flatten_slices {n : Nat} (hn : 0 < n) (b : Bytes) : (slices n b).flatten = b := by
  induction b using slices.induct n with
  | case1 => rw [slices_nil, List.flatten_nil]
  | case2 x rest _ ih => rw [slices_of_ne_nil hn (List.cons_ne_nil x rest), List.flatten_cons, ih, List.take_append_drop]
  | case3 x rest h => exact absurd hn h

/-- Taking one slice off leaves one slice less. -/
theorem div_add_one_eq {m n : Nat} (hn : 0 < n) (hm : 0 < m) : (m - n + n - 1) / n + 1 = (m + n - 1) / n := by
  by_cases hshort : m ≤ n
  · rw [show m - n + n - 1 = n - 1 by omega, Nat.div_eq_of_lt (by omega), show m + n - 1 = m - 1 + n by omega,
      Nat.add_div_right _ hn, Nat.div_eq_of_lt (by omega)]
  · rw [← Nat.add_div_right _ hn]
    congr 1
    omega

/-- The slices are as many as the quotient of the lengths, rounded up. -/
theorem length_slices {n : Nat} (hn : 0 < n) (b : Bytes) : (slices n b).length = (b.length + n - 1) / n := by
  induction b using slices.induct n with
  | case1 =>
    rw [slices_nil, List.length_nil, List.length_nil, Nat.zero_add, Nat.div_eq_of_lt (by omega)]
  | case2 x rest _ ih =>
    have hcons := List.cons_ne_nil x rest
    rw [slices_of_ne_nil hn hcons, List.length_cons, ih, List.length_drop,
      div_add_one_eq hn (List.length_pos_iff.mpr hcons)]
  | case3 x rest h => exact absurd hn h

/-- No slice is longer than asked for. -/
theorem length_le_of_mem_slices {n : Nat} {b s : Bytes} (h : s ∈ slices n b) : s.length ≤ n := by
  induction b using slices.induct n with
  | case1 => rw [slices_nil] at h; cases h
  | case2 x rest hn ih =>
    rw [slices_of_ne_nil hn (List.cons_ne_nil x rest), List.mem_cons] at h
    rcases h with rfl | h
    · exact List.length_take_le _ _
    · exact ih h
  | case3 x rest hn =>
    rw [slices, if_neg hn] at h
    cases h

/-- No slice is longer than the first. -/
theorem length_le_take_of_mem_slices {n : Nat} {b s : Bytes} (h : s ∈ slices n b) : s.length ≤ (b.take n).length := by
  have hn : 0 < n := by
    by_contra hzero
    cases b with
    | nil =>
      rw [slices_nil] at h
      cases h
    | cons x rest =>
      rw [slices, if_neg hzero] at h
      cases h
  have hwithin : s.length ≤ b.length := by
    rw [← flatten_slices hn b]
    exact (List.sublist_flatten_of_mem h).length_le
  rw [List.length_take]
  exact Nat.le_min.mpr ⟨length_le_of_mem_slices h, hwithin⟩

/-- The slices are at most one more than the quotient of the lengths. -/
theorem length_slices_lt {n : Nat} (hn : 0 < n) (b : Bytes) : (slices n b).length < b.length / n + 2 := by
  have hround : (b.length + n - 1) / n ≤ b.length / n + 1 := by
    rw [← Nat.add_div_right _ hn]
    exact Nat.div_le_div_right (Nat.sub_le _ _)
  rw [length_slices hn]
  exact Nat.lt_succ_of_le hround

/-- No slice but the last is shorter. -/
theorem length_eq_of_mem_dropLast_slices {n : Nat} {b s : Bytes} (h : s ∈ (slices n b).dropLast) : s.length = n := by
  induction b using slices.induct n with
  | case1 => rw [slices_nil] at h; cases h
  | case2 x rest hn ih =>
    rw [slices_of_ne_nil hn (List.cons_ne_nil x rest)] at h
    by_cases hlast : (x :: rest).drop n = []
    · rw [hlast, slices_nil] at h
      cases h
    · rw [slices_of_ne_nil hn hlast, List.dropLast_cons_cons, ← slices_of_ne_nil hn hlast, List.mem_cons] at h
      rcases h with rfl | h
      · have hlonger : n < (x :: rest).length := by rwa [List.drop_eq_nil_iff, not_le] at hlast
        rw [List.length_take, Nat.min_eq_left hlonger.le]
      · exact ih h
  | case3 x rest hn =>
    rw [slices, if_neg hn] at h
    cases h

/-! ## Masks -/

@[simp] theorem mask_length (a b : Bytes) : (mask a b).length = min a.length b.length := by
  rw [mask, List.length_zipWith]

/-- A mask that is long enough is undone by applying it again. -/
theorem mask_mask {a b : Bytes} (h : a.length ≤ b.length) : mask (mask a b) b = a := by
  induction a generalizing b with
  | nil => simp [mask]
  | cons x a ih =>
    cases b with
    | nil => simp at h
    | cons y b =>
      have hxy : x ^^^ y ^^^ y = x := by rw [UInt8.xor_assoc, UInt8.xor_self, UInt8.xor_zero]
      have := ih (b := b) (by simpa using h)
      simp only [mask, List.zipWith_cons_cons, hxy] at this ⊢
      rw [this]

/-! ## Texts -/

/-- The encoding of a text is read as the text. -/
theorem text?_ofText (s : String) : text? (ofText s) = some s := by
  have hbytes : (⟨(ofText s).toArray⟩ : ByteArray) = s.toByteArray := by simp [ofText]
  rw [text?, hbytes, String.fromUTF8?, dif_pos s.isValidUTF8]
  rfl

end EnvelopeLog.Bytes
