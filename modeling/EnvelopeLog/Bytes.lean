/-!
# Bytes

Byte strings are lists. This module cuts them into slices, masks one with another, and reads and writes natural numbers
in either byte order. A number written in `width` bytes keeps its value modulo `256 ^ width`, and `minimal` writes the
shortest big-endian form, in which zero takes one byte.
-/

namespace EnvelopeLog

/-- A byte string. -/
abbrev Bytes := List UInt8

namespace Bytes

/-- The bytewise exclusive or, as long as the shorter of the two strings. -/
def mask (a b : Bytes) : Bytes := List.zipWith (· ^^^ ·) a b

/-- The consecutive slices of `n` bytes, of which only the last may be shorter and none is empty; no slice has width zero. -/
def slices (n : Nat) : Bytes → List Bytes
  | [] => []
  | b :: rest => if 0 < n then (b :: rest).take n :: slices n ((b :: rest).drop n) else []
termination_by b => b.length
decreasing_by
  simp only [List.length_drop, List.length_cons]
  omega

/-- The low `width` bytes of a number, the lowest first. -/
def littleEndian : Nat → Nat → Bytes
  | 0, _ => []
  | width + 1, n => UInt8.ofNat n :: littleEndian width (n / 256)

/-- The number whose bytes are given, the lowest first. -/
def fromLittleEndian : Bytes → Nat
  | [] => 0
  | b :: rest => b.toNat + 256 * fromLittleEndian rest

/-- The low `width` bytes of a number, the highest first. -/
def bigEndian (width n : Nat) : Bytes := (littleEndian width n).reverse

/-- The number whose bytes are given, the highest first. -/
def fromBigEndian (b : Bytes) : Nat := fromLittleEndian b.reverse

/-- How many bytes the shortest form of a number takes; zero takes one. -/
def widthOf (n : Nat) : Nat := n.log2 / 8 + 1

/-- The shortest big-endian form of a number. -/
def minimal (n : Nat) : Bytes := bigEndian (widthOf n) n

/-- The encoding of a text in UTF-8. -/
def ofText (s : String) : Bytes := s.toByteArray.data.toList

/-- The text that the bytes encode in UTF-8, if they encode one. -/
def text? (b : Bytes) : Option String := String.fromUTF8? ⟨b.toArray⟩

end Bytes

/-- How many binary digits a number has; zero has none. -/
def bitLength (n : Nat) : Nat := if n = 0 then 0 else n.log2 + 1

end EnvelopeLog
