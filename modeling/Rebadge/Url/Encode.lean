import Rebadge.Bytes

/-!
# Percent encoding

A character that a part of a URL cannot hold is written as the bytes of its UTF-8 encoding, each a
`%` and two hexadecimal digits.
-/

namespace Rebadge.Url

/-- Control characters and all that is not ASCII. -/
def isControl (c : Char) : Bool := c.toNat < 0x20 || 0x7E < c.toNat

/-- What a fragment cannot hold. -/
def fragmentSet (c : Char) : Bool := isControl c || [' ', '"', '<', '>', '\x60'].contains c

/-- What a path segment cannot hold. -/
def pathSet (c : Char) : Bool := fragmentSet c || ['#', '?', '\x7b', '\x7d'].contains c

/-- What a user name or password cannot hold. -/
def userinfoSet (c : Char) : Bool :=
  pathSet c || ['/', ':', ';', '=', '@', '[', '\\', ']', '^', '|'].contains c

/-- What a query cannot hold; the schemes with a fixed structure also refuse the single quote. -/
def querySet (special : Bool) (c : Char) : Bool :=
  isControl c || [' ', '"', '#', '<', '>'].contains c || (special && c == '\'')

/-- A hexadecimal digit below 16, in upper case. -/
def upperHexDigit (n : Nat) : Char := Char.ofNat (if n < 10 then n + 48 else n + 55)

/-- A byte as `%` and two digits. -/
def encodeByte (b : UInt8) : List Char :=
  ['%', upperHexDigit (b.toNat / 16), upperHexDigit (b.toNat % 16)]

/-- The character, encoded if it is in the set. -/
def encodeChar (set : Char → Bool) (c : Char) : List Char :=
  if set c then (String.utf8EncodeChar c).flatMap encodeByte else [c]

/-- The text with the characters of the set encoded. -/
def encode (set : Char → Bool) (s : List Char) : String :=
  .ofList (s.flatMap (encodeChar set))

/-- The value of a hexadecimal digit. -/
def hexDigit? (b : UInt8) : Option Nat :=
  let n := b.toNat
  if 48 ≤ n ∧ n ≤ 57 then some (n - 48)
  else if 97 ≤ n ∧ n ≤ 102 then some (n - 87)
  else if 65 ≤ n ∧ n ≤ 70 then some (n - 55)
  else none

/-- The bytes with each `%` and its two digits replaced by the byte that they stand for. -/
def percentDecode : Bytes → Bytes
  | 0x25 :: a :: b :: rest =>
    match hexDigit? a, hexDigit? b with
    | some x, some y => .ofNat (16 * x + y) :: percentDecode rest
    | _, _ => 0x25 :: percentDecode (a :: b :: rest)
  | x :: rest => x :: percentDecode rest
  | [] => []

end Rebadge.Url
