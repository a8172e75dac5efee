import EnvelopeLog.Entropy
import EnvelopeLog.Rsa.Key

/-!
# Generating keys

A prime is searched upwards from a random odd number whose two highest bits are set, so that the product of two primes has
the number of bits asked for. Candidates are tried by small divisors and then by the strong test to the first twenty prime
bases.
-/

namespace EnvelopeLog.Rsa

/-- The public exponent of generated keys. -/
def standardExponent : Nat := 65537

/-- The primes below 256. -/
def smallPrimes : List Nat :=
  (List.range 256).filter fun n => 2 ≤ n ∧ (List.range n).all fun k => k < 2 ∨ n % k ≠ 0

/-- Whether one of `x`, `x ^ 2`, `x ^ 4`, … up to `rounds` squarings is `n - 1` modulo `n`. -/
def reachesMinusOne (n : Nat) : Nat → Nat → Bool
  | 0, _ => false
  | rounds + 1, x => x == n - 1 || reachesMinusOne n rounds (x * x % n)

/-- The odd part of a positive number and how often two divides it. -/
def oddPart (n : Nat) : Nat × Nat :=
  if 0 < n ∧ n % 2 = 0 then
    let (odd, twos) := oddPart (n / 2)
    (odd, twos + 1)
  else (n, 0)
termination_by n
decreasing_by omega

/-- Whether an odd number passes the strong test to a base. -/
def passesStrongTest (n base : Nat) : Bool :=
  let (odd, twos) := oddPart (n - 1)
  let x := power base odd n
  x == 1 || reachesMinusOne n twos x

/-- Whether a number above 256 is taken for a prime. -/
def isProbablePrime (n : Nat) : Bool :=
  smallPrimes.all (fun p => n % p != 0) && (smallPrimes.take 20).all (passesStrongTest n)

/-- The first of `tries` successive odd numbers that is taken for a prime and leaves the public exponent invertible. -/
def nextPrime? : Nat → Nat → Option Nat
  | 0, _ => none
  | tries + 1, n =>
    if (n - 1) % standardExponent != 0 && isProbablePrime n then some n else nextPrime? tries (n + 2)

/-- A prime of the given number of bits, if one follows soon enough on the number drawn. -/
def drawPrime? (bits : Nat) (entropy : Entropy) : Option Nat × Entropy :=
  let (bytes, entropy) := entropy.draw ((bits + 7) / 8)
  let start := Bytes.fromBigEndian bytes % (1 <<< (bits - 2)) ||| 3 <<< (bits - 2) ||| 1
  ((nextPrime? (20 * bits) start).filter (bitLength · = bits), entropy)

/-- A key of two different primes with a modulus of the given number of bits, found within `tries` pairs of primes. -/
def generate (bits : Nat) : Nat → Entropy → Except Refusal PrivateKey × Entropy
  | 0, entropy => (.error .exhausted, entropy)
  | tries + 1, entropy =>
    let (p?, entropy) := drawPrime? (bits - bits / 2) entropy
    let (q?, entropy) := drawPrime? (bits / 2) entropy
    match p?, q? with
    | some p, some q =>
      match inverse? standardExponent ((p - 1) * (q - 1)) with
      | some d =>
        if p = q ∨ bitLength (p * q) ≠ bits then generate bits tries entropy
        else (.ok { modulus := p * q, exponent := standardExponent, privateExponent := d, primes := [p, q] }, entropy)
      | none => generate bits tries entropy
    | _, _ => generate bits tries entropy

end EnvelopeLog.Rsa
