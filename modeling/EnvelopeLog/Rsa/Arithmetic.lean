/-!
# Modular arithmetic

Powers and inverses modulo a number, and the integer square root.
-/

namespace EnvelopeLog.Rsa

/-- `b ^ e` modulo `n`, by repeated squaring. -/
def power (b e n : Nat) : Nat :=
  if e = 0 then 1 % n
  else
    let half := power (b * b % n) (e / 2) n
    if e % 2 = 0 then half else b * half % n
termination_by e

/-- The greatest common divisor of `r` and `r'`, with the coefficient that the steps from `s` and `s'` give it: if `r` and
`r'` are `s * a` and `s' * a` modulo some number, so is the divisor with its coefficient. -/
def euclid (r r' : Nat) (s s' : Int) : Nat × Int :=
  if r' = 0 then (r, s) else euclid r' (r % r') s' (s - (r / r' : Nat) * s')
termination_by r'
decreasing_by exact Nat.mod_lt _ (by omega)

/-- The number below `m` whose product with `a` is one modulo `m`, which exists if `a` and `m` are coprime. -/
def inverse? (a m : Nat) : Option Nat :=
  let (divisor, s) := euclid (a % m) m 1 0
  if divisor = 1 then some (s % m).toNat else none

/-- The largest number whose square is at most `n`, by binary digits from the highest down. -/
def squareRoot (n : Nat) : Nat :=
  if n = 0 then 0
  else
    let root := 2 * squareRoot (n / 4)
    if (root + 1) * (root + 1) ≤ n then root + 1 else root
termination_by n

end EnvelopeLog.Rsa
