import EnvelopeLog.Bytes

/-!
# The AES block cipher with a key of 256 bits

A block of sixteen bytes is read as four columns of four. Fourteen rounds substitute every byte, shift the rows, mix the
columns (all but the last round) and add a round key. The byte substitution is computed, not listed: the inverse in the
field of 256 elements followed by an affine map.
-/

namespace EnvelopeLog.Aes

/-- A block of the cipher; byte `4 * c + r` stands in column `c` and row `r`. -/
abbrev Block := Vector UInt8 16

/-- The product with `x` in the field of polynomials modulo `x ^ 8 + x ^ 4 + x ^ 3 + x + 1`. -/
def double (b : UInt8) : UInt8 := (b <<< 1) ^^^ (if b &&& 0x80 = 0 then 0 else 0x1b)

/-- The product in that field, by the digits of the first factor from the highest down. -/
def times (a b : UInt8) : UInt8 :=
  [7, 6, 5, 4, 3, 2, 1, 0].foldl (fun p (i : UInt8) => double p ^^^ (if (a >>> i) &&& 1 = 0 then 0 else b)) 0

/-- The inverse in that field, which is the power 254 = 2 + 4 + … + 128; zero goes to zero. -/
def invert (b : UInt8) : UInt8 :=
  let square (b : UInt8) := times b b
  let powers := (List.range 6).foldl (fun (p, s) _ => (times p (square s), square s)) (square b, square b)
  powers.1

/-- The byte with its bits moved up by `n` places, those that fall out coming back at the bottom. -/
def rotate (b n : UInt8) : UInt8 := (b <<< n) ||| (b >>> (8 - n))

/-- The byte substitution, listed once for all bytes. -/
def substitution : Vector UInt8 256 := Vector.ofFn fun i =>
  let b := invert (UInt8.ofNat i)
  b ^^^ rotate b 1 ^^^ rotate b 2 ^^^ rotate b 3 ^^^ rotate b 4 ^^^ 0x63

/-- The substitute of a byte. -/
def substitute (b : UInt8) : UInt8 := substitution.get ⟨b.toNat, b.toNat_lt⟩

/-- Row `r` moves `r` columns to the left. -/
def shiftRows (s : Block) : Block := Vector.ofFn fun i => s.get ⟨(i.val + 4 * (i.val % 4)) % 16, Nat.mod_lt _ (by decide)⟩

/-- Every column is multiplied by the matrix whose first row is 2, 3, 1, 1 and whose other rows are its rotations. -/
def mixColumns (s : Block) : Block := Vector.ofFn fun i =>
  let entry (k : Nat) : UInt8 := s.toArray.getD (4 * (i.val / 4) + (i.val + k) % 4) 0
  double (entry 0) ^^^ double (entry 1) ^^^ entry 1 ^^^ entry 2 ^^^ entry 3

/-- The bytewise sum of two blocks. -/
def add (s t : Block) : Block := s.zipWith (· ^^^ ·) t

/-- The sixty words of the key schedule: the eight words of the key, then each from the last one and the one eight back. -/
def keyWords (key : Bytes) : Array Bytes :=
  let extend (w : Array Bytes) (i : Nat) : Array Bytes :=
    let last := w.getD (i + 7) []
    let turned := if i % 8 = 0 then
        Bytes.mask ((last.drop 1 ++ last.take 1).map substitute) [(1 : UInt8) <<< UInt8.ofNat (i / 8), 0, 0, 0]
      else if i % 8 = 4 then last.map substitute else last
    w.push (Bytes.mask (w.getD i []) turned)
  (List.range 52).foldl extend (Bytes.slices 4 key).toArray

/-- The block that the first sixteen bytes make, zeros standing for missing ones. -/
def Block.ofBytes (b : Bytes) : Block :=
  let a := b.toArray
  Vector.ofFn fun i => a.getD i.val 0

/-- The fifteen round keys of a key of 32 bytes. -/
def roundKeys (key : Bytes) : List Block :=
  (Bytes.slices 16 (keyWords key).toList.flatten).map Block.ofBytes

/-- The block after the rounds that the round keys give, the last of which mixes no columns. -/
def rounds (s : Block) : List Block → Block
  | [] => s
  | [last] => add (shiftRows (s.map substitute)) last
  | key :: keys => rounds (add (mixColumns (shiftRows (s.map substitute))) key) keys

/-- The cipher under a list of round keys, the first of which is added before the rounds. -/
def encrypt (keys : List Block) (block : Block) : Block :=
  match keys with
  | [] => block
  | first :: rest => rounds (add block first) rest

end EnvelopeLog.Aes
