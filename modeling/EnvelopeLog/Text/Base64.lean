import EnvelopeLog.Bytes

/-!
# Base 64

Three bytes are written as four of 64 symbols, and a rest of one or two bytes as two or three symbols filled up with the
padding symbol. Reading accepts exactly what writing produces: padding is required, and the bits of the last symbol that no
byte needs must be zero.
-/

namespace EnvelopeLog.Base64

/-- Why a byte string is not the written form of any. -/
inductive Fault where
  /-- A byte is no symbol, or it is a padding symbol where none may stand. -/
  | invalidSymbol (byte : UInt8) (offset : Nat)
  /-- One symbol is left over. -/
  | invalidLength (length : Nat)
  /-- The last symbol has bits that no byte needs. -/
  | invalidLastSymbol (byte : UInt8) (offset : Nat)
  /-- Padding symbols are missing. -/
  | invalidPadding
deriving DecidableEq, Repr

/-- The words for a fault. -/
def Fault.message : Fault → String
  | .invalidSymbol byte offset => s!"Invalid symbol {byte}, offset {offset}."
  | .invalidLength length => s!"Invalid input length: {length}"
  | .invalidLastSymbol byte offset => s!"Invalid last symbol {byte}, offset {offset}."
  | .invalidPadding => "Invalid padding"

/-- The padding symbol, an equals sign. -/
def padding : UInt8 := 61

/-- The symbol of a number below 64: capital letters, small letters, digits, plus and slash. -/
def symbol (n : Nat) : UInt8 :=
  if n < 26 then UInt8.ofNat (n + 65)
  else if n < 52 then UInt8.ofNat (n + 71)
  else if n < 62 then UInt8.ofNat (n - 4)
  else if n = 62 then 43
  else 47

/-- The number of a symbol. -/
def value? (b : UInt8) : Option Nat :=
  let n := b.toNat
  if 65 ≤ n ∧ n < 91 then some (n - 65)
  else if 97 ≤ n ∧ n < 123 then some (n - 71)
  else if 48 ≤ n ∧ n < 58 then some (n + 4)
  else if n = 43 then some 62
  else if n = 47 then some 63
  else none

/-- The written form of a byte string. -/
def encode : Bytes → Bytes
  | a :: b :: c :: rest =>
    let n := a.toNat * 65536 + b.toNat * 256 + c.toNat
    symbol (n / 262144) :: symbol (n / 4096 % 64) :: symbol (n / 64 % 64) :: symbol (n % 64) :: encode rest
  | [a, b] =>
    let n := a.toNat * 1024 + b.toNat * 4
    [symbol (n / 4096), symbol (n / 64 % 64), symbol (n % 64), padding]
  | [a] =>
    let n := a.toNat * 16
    [symbol (n / 64), symbol (n % 64), padding, padding]
  | [] => []

/-- The number of the symbol at an offset. -/
def readSymbol (offset : Nat) (b : UInt8) : Except Fault Nat :=
  match value? b with
  | some v => .ok v
  | none => .error (.invalidSymbol b offset)

/-- The symbols of the last group and how many padding symbols follow them. In a group only padding follows padding, and it
follows two symbols at least. -/
def readGroup (offset index : Nat) : Bytes → Except Fault (List Nat × Nat)
  | [] => .ok ([], 0)
  | b :: rest =>
    if b = padding then
      if 2 ≤ index ∧ rest.all (· = padding) then .ok ([], rest.length + 1) else .error (.invalidSymbol b (offset + index))
    else
      match readSymbol (offset + index) b, readGroup offset (index + 1) rest with
      | .ok v, .ok (values, pads) => .ok (v :: values, pads)
      | .error e, _ => .error e
      | _, .error e => .error e

/-- The bytes of the last group, which starts at an offset and has at most four symbols. -/
def decodeGroup (offset : Nat) (group : Bytes) : Except Fault Bytes :=
  match readGroup offset 0 group with
  | .error e => .error e
  | .ok (values, pads) =>
    if values.length = 1 then .error (.invalidLength (offset + 1))
    else if (values.length + pads) % 4 ≠ 0 then .error .invalidPadding
    else
      match values with
      | [a, b, c, d] =>
        let n := a * 262144 + b * 4096 + c * 64 + d
        .ok [UInt8.ofNat (n / 65536), UInt8.ofNat (n / 256), UInt8.ofNat n]
      | [a, b, c] =>
        if c % 4 ≠ 0 then .error (.invalidLastSymbol (group.getD 2 0) (offset + 2))
        else
          let n := (a * 4096 + b * 64 + c) / 4
          .ok [UInt8.ofNat (n / 256), UInt8.ofNat n]
      | [a, b] =>
        if b % 16 ≠ 0 then .error (.invalidLastSymbol (group.getD 1 0) (offset + 1))
        else .ok [UInt8.ofNat ((a * 64 + b) / 16)]
      | _ => .ok []

/-- The bytes that a string from an offset on is the written form of: groups of four symbols, of which only the last may
hold padding. -/
def decodeFrom (offset : Nat) : Bytes → Except Fault Bytes
  | a :: b :: c :: d :: e :: rest =>
    match readSymbol offset a, readSymbol (offset + 1) b, readSymbol (offset + 2) c, readSymbol (offset + 3) d with
    | .ok a, .ok b, .ok c, .ok d =>
      let n := a * 262144 + b * 4096 + c * 64 + d
      match decodeFrom (offset + 4) (e :: rest) with
      | .ok bytes => .ok (UInt8.ofNat (n / 65536) :: UInt8.ofNat (n / 256) :: UInt8.ofNat n :: bytes)
      | .error e => .error e
    | .error e, _, _, _ => .error e
    | _, .error e, _, _ => .error e
    | _, _, .error e, _ => .error e
    | _, _, _, .error e => .error e
  | group => decodeGroup offset group

/-- The bytes that a string is the written form of. A last byte that is no symbol is reported first if it is left over. -/
def decode (s : Bytes) : Except Fault Bytes :=
  match s.getLast? with
  | some last =>
    if s.length % 4 = 1 ∧ last ≠ padding ∧ value? last = none then .error (.invalidSymbol last (s.length - 1))
    else decodeFrom 0 s
  | none => .ok []

end EnvelopeLog.Base64
