import EnvelopeLog.Digest.Sha256

/-!
# Entropy

Random bytes are an unending sequence of which a prefix has been drawn. No byte is drawn twice.
-/

namespace EnvelopeLog

/-- A sequence of random bytes and how many of them have been drawn. -/
structure Entropy where
  byte : Nat → UInt8
  drawn : Nat := 0

namespace Entropy

/-- The `n` bytes from position `start` on. -/
def range (e : Entropy) (start n : Nat) : Bytes := (List.range n).map fun i => e.byte (start + i)

/-- The next `n` bytes, and the sequence without them. -/
def draw (e : Entropy) (n : Nat) : Bytes × Entropy := (e.range e.drawn n, { e with drawn := e.drawn + n })

/-- The sequence that repeats a byte string for ever; the empty string repeats zeros. -/
def cycle (seed : Bytes) : Entropy :=
  let bytes := seed.toArray
  { byte := fun n => bytes.getD (n % bytes.size) 0 }

/-- The sequence that a seed grows to: the digests of the seed followed by a counter of eight bytes. -/
def expand (seed : Bytes) : Entropy :=
  { byte := fun n => (Sha256.hash (seed ++ Bytes.bigEndian 8 (n / 32))).getD (n % 32) 0 }

end Entropy

end EnvelopeLog
