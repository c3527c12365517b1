import Rebadge.Bytes

/-!
# Base64

Three bytes are four digits of six bits each; a last group of one or two bytes is two or three
digits, whose unused low bits are zero. There are two alphabets. Reading is strict: it accepts
exactly what writing produces without padding.
-/

namespace Rebadge.Base64

/-- The alphabets: they differ in their last two digits. -/
inductive Alphabet where
  | standard
  | urlSafe
deriving DecidableEq, Repr

/-- The digits 62 and 63 of the alphabet. -/
def Alphabet.lastTwo : Alphabet → Char × Char
  | .standard => ('+', '/')
  | .urlSafe => ('-', '_')

/-- The character of a digit below 64. -/
def Alphabet.char (a : Alphabet) (d : Nat) : Char :=
  if d < 26 then Char.ofNat (d + 65)
  else if d < 52 then Char.ofNat (d + 71)
  else if d < 62 then Char.ofNat (d - 4)
  else if d = 62 then a.lastTwo.1
  else a.lastTwo.2

/-- The digit that a byte stands for. -/
def Alphabet.digit? (a : Alphabet) (b : UInt8) : Option Nat :=
  let n := b.toNat
  if 65 ≤ n ∧ n ≤ 90 then some (n - 65)
  else if 97 ≤ n ∧ n ≤ 122 then some (n - 71)
  else if 48 ≤ n ∧ n ≤ 57 then some (n + 4)
  else if n = a.lastTwo.1.toNat then some 62
  else if n = a.lastTwo.2.toNat then some 63
  else none

/-! ## Writing -/

/-- The digits of the bytes. -/
def digits : Bytes → List Nat
  | x :: y :: z :: rest =>
    [x.toNat / 4, x.toNat % 4 * 16 + y.toNat / 16, y.toNat % 16 * 4 + z.toNat / 64, z.toNat % 64]
      ++ digits rest
  | [x, y] => [x.toNat / 4, x.toNat % 4 * 16 + y.toNat / 16, y.toNat % 16 * 4]
  | [x] => [x.toNat / 4, x.toNat % 4 * 16]
  | [] => []

/-- The text of the bytes, without padding. -/
def encode (a : Alphabet) (b : Bytes) : List Char :=
  (digits b).map a.char

/-- The signs that fill the last group of four. -/
def padding (b : Bytes) : List Char :=
  List.replicate ((3 - b.length % 3) % 3) '='

/-! ## Reading -/

/-- Why a text is not the encoding of any bytes. Offsets count bytes of the text. -/
inductive DecodeError where
  /-- A byte is no digit of the alphabet. -/
  | invalidSymbol (byte : UInt8) (offset : Nat)
  /-- A single digit is left over. -/
  | invalidLength (length : Nat)
  /-- The last digit has a bit set that belongs to no byte. -/
  | invalidLastSymbol (byte : UInt8) (offset : Nat)
deriving DecidableEq, Repr

/-- The wording of the error. -/
def DecodeError.message : DecodeError → String
  | .invalidSymbol b n => s!"Invalid symbol {b}, offset {n}."
  | .invalidLength n => s!"Invalid input length: {n}"
  | .invalidLastSymbol b n => s!"Invalid last symbol {b}, offset {n}."

/-- The bytes of groups of digits; the bits that fill no byte are dropped. -/
def ofDigits : List Nat → Bytes
  | a :: b :: c :: d :: rest =>
    .ofNat (a * 4 + b / 16) :: .ofNat (b % 16 * 16 + c / 4) :: .ofNat (c % 4 * 64 + d) ::
    ofDigits rest
  | [a, b, c] => [.ofNat (a * 4 + b / 16), .ofNat (b % 16 * 16 + c / 4)]
  | [a, b] => [.ofNat (a * 4 + b / 16)]
  | _ => []

/-- The low bits of the last digit that belong to no byte. -/
def looseBits : List Nat → Nat
  | _ :: _ :: _ :: _ :: rest => looseBits rest
  | [_, _, c] => c % 4
  | [_, b] => b % 16
  | _ => 0

/-- The digits of a text, or the first byte that is none with its offset from `n`. -/
def readDigits (a : Alphabet) (n : Nat) : Bytes → Except DecodeError (List Nat)
  | [] => .ok []
  | b :: rest =>
    match a.digit? b with
    | none => .error (.invalidSymbol b n)
    | some d => (readDigits a (n + 1) rest).map (d :: ·)

/-- The bytes that the text encodes. A lone last byte is looked at before all others. -/
def decode (a : Alphabet) (text : Bytes) : Except DecodeError Bytes := do
  let lone := text.length % 4 = 1
  if let some last := text.getLast? then
    if lone ∧ a.digit? last = none then throw (.invalidSymbol last (text.length - 1))
  let ds ← readDigits a 0 text
  if lone then throw (.invalidLength text.length)
  if looseBits ds ≠ 0 then throw (.invalidLastSymbol (text.getLastD 0) (text.length - 1))
  return ofDigits ds

end Rebadge.Base64
