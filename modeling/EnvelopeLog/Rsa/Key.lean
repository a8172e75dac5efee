import EnvelopeLog.Bytes
import EnvelopeLog.Rsa.Arithmetic

/-!
# RSA keys

A public key is a modulus and an exponent; a private key adds the private exponent and the primes. `check` says in which
order a key is examined and why it is refused. Primality is not examined: a number stands for a prime if it exceeds one,
divides the modulus as told and fits the exponents.
-/

namespace EnvelopeLog.Rsa

/-- Why the arithmetic of a key or of a message is refused. -/
inductive Refusal where
  /-- The modulus has more bits than the caller allows. -/
  | modulusTooLarge
  /-- The public exponent has more than 33 bits. -/
  | exponentTooLarge
  /-- The public exponent is one. -/
  | exponentTooSmall
  /-- The modulus is even, at most the public exponent, or not the product of the primes. -/
  | invalidModulus
  /-- The public exponent is even, or the two exponents do not belong together. -/
  | invalidExponent
  /-- A prime is zero or one, or the second has no inverse modulo the first. -/
  | invalidPrime
  /-- A single prime was given. -/
  | tooFewPrimes
  /-- The primes do not follow from the modulus and the exponents. -/
  | unrecoverable
  /-- The message leaves no room for the padding. -/
  | messageTooLong
  /-- The ciphertext is none, or its padding is damaged. -/
  | undecipherable
  /-- The recovered number does not encrypt to the ciphertext. -/
  | inconsistent
  /-- No primes were found among the candidates drawn. -/
  | exhausted
deriving DecidableEq, Repr

/-- The words for a refusal. -/
def Refusal.message : Refusal → String
  | .modulusTooLarge => "modulus too large"
  | .exponentTooLarge => "public exponent too large"
  | .exponentTooSmall => "public exponent too small"
  | .invalidModulus => "invalid modulus"
  | .invalidExponent => "invalid exponent"
  | .invalidPrime => "invalid prime value"
  | .tooFewPrimes => "nprimes must be >= 2"
  | .unrecoverable => "invalid arguments"
  | .messageTooLong => "message too long"
  | .undecipherable => "decryption error"
  | .inconsistent => "internal error"
  | .exhausted => "too few primes of given length to generate an RSA key"

/-- The key that encrypts. -/
structure PublicKey where
  modulus : Nat
  exponent : Nat
deriving DecidableEq, Repr, Inhabited

/-- The key that decrypts; its public half is the key that encrypts for it. -/
structure PrivateKey extends PublicKey where
  privateExponent : Nat
  primes : List Nat
deriving DecidableEq, Repr, Inhabited

/-- How many bytes a ciphertext under the key takes. -/
def PublicKey.size (k : PublicKey) : Nat := Bytes.widthOf k.modulus

/-- Examines a public key: first the size of the modulus against the limit, if there is one, then the exponent and the
modulus. -/
def PublicKey.check (limit : Option Nat) (k : PublicKey) : Except Refusal Unit :=
  if limit.any (· < bitLength k.modulus) then .error .modulusTooLarge
  else if 0x10000000000000000 ≤ k.exponent then .error .exponentTooLarge
  else if k.modulus ≤ k.exponent ∨ k.modulus % 2 = 0 then .error .invalidModulus
  else if k.exponent % 2 = 0 then .error .invalidExponent
  else if k.exponent < 2 then .error .exponentTooSmall
  else if 0x200000000 ≤ k.exponent then .error .exponentTooLarge
  else .ok ()

/-- The product of the primes. -/
def PrivateKey.product (k : PrivateKey) : Nat := k.primes.foldl (· * ·) 1

/-- Examines a private key: its public half without a limit, then that the primes exceed one, that their product is the
modulus, and that the product of the exponents is one modulo each prime less one. -/
def PrivateKey.check (k : PrivateKey) : Except Refusal Unit :=
  match k.toPublicKey.check none with
  | .error e => .error e
  | .ok () =>
    if k.primes.any (· ≤ 1) then .error .invalidPrime
    else if k.product ≠ k.modulus then .error .invalidModulus
    else if k.primes.any fun p => k.privateExponent * k.exponent % (p - 1) ≠ 1 then .error .invalidExponent
    else .ok ()

/-- The two primes of a modulus, the larger one first, found from the exponents: their sum is `(n - r) / (m + 1) + 1`,
where `m` and `r` are the quotient and the remainder by `n` of `(d * e - 1) * gcd (n - 1, d * e - 1)`. -/
def recoverPrimes? (n e d : Nat) : Option (Nat × Nat) :=
  let k := d * e - 1
  let a := k * Nat.gcd (n - 1) k
  let m := a / n
  let r := a % n
  if e ≤ 65536 ∨ (n - r) % (m + 1) ≠ 0 then none
  else
    let sum := (n - r) / (m + 1) + 1
    if sum * sum ≤ 4 * n then none
    else
      let difference := squareRoot (sum * sum - 4 * n)
      if difference * difference = sum * sum - 4 * n then some ((sum + difference) / 2, (sum - difference) / 2) else none

/-- The key of the given numbers if it stands up to examination; without any prime the two primes are recovered. -/
def PrivateKey.ofComponents (n e d : Nat) (primes : List Nat) : Except Refusal PrivateKey :=
  let examined (primes : List Nat) : Except Refusal PrivateKey :=
    let k : PrivateKey := { modulus := n, exponent := e, privateExponent := d, primes }
    match k.check with
    | .error e => .error e
    | .ok () => .ok k
  match primes with
  | [] =>
    match recoverPrimes? n e d with
    | some (p, q) => examined [p, q]
    | none => .error .unrecoverable
  | [_] => .error .tooFewPrimes
  | _ => examined primes

/-- The numbers that speed up decryption with two primes `p` and `q`. -/
structure Shortcut where
  p : Nat
  q : Nat
  /-- The private exponent modulo `p - 1`. -/
  dp : Nat
  /-- The private exponent modulo `q - 1`. -/
  dq : Nat
  /-- The inverse of `q` modulo `p`. -/
  qInverse : Nat
deriving DecidableEq, Repr

/-- The shortcut of a key with two primes of which the second is invertible modulo the first. -/
def PrivateKey.shortcut? (k : PrivateKey) : Option Shortcut :=
  match k.primes with
  | [p, q] => (inverse? q p).map fun i => ⟨p, q, k.privateExponent % (p - 1), k.privateExponent % (q - 1), i⟩
  | _ => none

end EnvelopeLog.Rsa
