/-!
# Decimal form of binary fractions

A double is shown with the fewest digits that no other double is nearer to, positionally if its first digit stands between
the fifth place after the point and the sixteenth before it, and with an exponent otherwise.
-/

namespace EnvelopeLog.Decimal

/-- The number of decimal digits of a natural number; zero has none. -/
def digitCount (n : Nat) : Nat := if n = 0 then 0 else digitCount (n / 10) + 1

/-- The place of the first digit of a positive fraction: `p` if the fraction is below `10 ^ p` and not below `10 ^ (p - 1)`.
Below one, the place is sought among `tries` places after the point. -/
def firstPlace (numerator denominator : Nat) : Nat → Int
  | 0 => 1
  | tries + 1 =>
    if denominator ≤ numerator then digitCount (numerator / denominator)
    else firstPlace (10 * numerator) denominator tries - 1

/-- The fewest digits, with the place of the first, of a multiple of a power of ten between two bounds around a fraction.
Of two such multiples with `digits` digits the nearer one is taken, and the even one of two equally near. All numbers are
parts of `denominator`; the bounds count if `inclusive`. -/
def fewestDigits (value low high denominator : Nat) (inclusive : Bool) (place : Int) : Nat → Nat → Nat × Int
  | 0, _ => (0, place)
  | tries + 1, digits =>
    let shift := place - digits
    let up := Nat.pow 10 shift.toNat
    let down := Nat.pow 10 (-shift).toNat
    let unit := denominator * up
    let floor := value * down / unit
    let inside (c : Nat) : Bool :=
      if inclusive then low * down ≤ c * unit && c * unit ≤ high * down else low * down < c * unit && c * unit < high * down
    let below := value * down - floor * unit
    let above := (floor + 1) * unit - value * down
    let preferUp := above < below || (above == below && floor % 2 == 1)
    if inside floor && !(preferUp && inside (floor + 1)) then (floor, shift)
    else if inside (floor + 1) then (floor + 1, shift)
    else fewestDigits value low high denominator inclusive place tries (digits + 1)

/-- The least significand of a double that is not subnormal. Its encoding leaves the leading bit out. -/
def hiddenBit : Nat := 0x10000000000000

/-- The shortest decimal significand and exponent of a positive finite double `m * 2 ^ e`. The doubles beside it are one
unit of `m` away, except that the lower one is half as far when `m` is the least significand. -/
def shortest (m : Nat) (e : Int) : Nat × Int :=
  let shift := e - 2
  let up := 1 <<< shift.toNat
  let denominator := 1 <<< (-shift).toNat
  let value := 4 * m * up
  let low := (if m = hiddenBit ∧ -1074 < e then 4 * m - 1 else 4 * m - 2) * up
  let high := (4 * m + 2) * up
  fewestDigits value low high denominator (m % 2 == 0) (firstPlace value denominator 400) 17 1

/-- A positive decimal number as text. -/
def positional (significand : Nat) (exponent : Int) : String :=
  let digits := Nat.toDigits 10 significand
  let stripped := (digits.reverse.dropWhile (· = '0')).reverse
  let top : Int := digits.length - 1 + exponent
  let text : List Char :=
    if 0 ≤ top ∧ top ≤ 15 then
      let whole := (stripped ++ List.replicate (top.toNat + 1 - stripped.length) '0').take (top.toNat + 1)
      let fraction := stripped.drop (top.toNat + 1)
      whole ++ '.' :: (if fraction = [] then ['0'] else fraction)
    else if -5 ≤ top ∧ top < 0 then
      '0' :: '.' :: List.replicate (-top - 1).toNat '0' ++ stripped
    else
      let power := Nat.toDigits 10 top.natAbs
      let mantissa := match stripped with
        | [] => []
        | [d] => [d]
        | d :: rest => d :: '.' :: rest
      mantissa ++ 'e' :: (if top < 0 then '-' else '+') :: (if power.length < 2 then '0' :: power else power)
  String.ofList text

/-- A finite double as text. -/
def ofFloat (x : Float) : String :=
  let bits := x.toBits.toNat
  let field := bits / hiddenBit % 2048
  let fraction := bits % hiddenBit
  let sign := if bits < 0x8000000000000000 then "" else "-"
  let m := if field = 0 then fraction else fraction + hiddenBit
  let e : Int := (if field = 0 then 1 else field : Nat) - 1075
  if m = 0 then sign ++ "0.0"
  else
    let (significand, exponent) := shortest m e
    sign ++ positional significand exponent

end EnvelopeLog.Decimal
