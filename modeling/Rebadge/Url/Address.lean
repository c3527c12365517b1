import Rebadge.Url.Basic
import Rebadge.Url.Encode

/-!
# Numeric hosts

IPv4 addresses have up to four numbers, in decimal, octal or hexadecimal, of which the last fills
the bytes that are left. IPv6 addresses have eight pieces, of which one run of zeros may be left out
and the last two may be written as an IPv4 address.
-/

namespace Rebadge.Url

/-! ## IPv4 -/

/-- The value of digits in a base, read after `n`. -/
def digitsValue? (base : Nat) (n : Nat) : List Char → Option Nat
  | [] => some n
  | c :: s =>
    match (hexDigit? (UInt8.ofNat c.toNat)).filter (fun d => c.toNat < 128 && d < base) with
    | some d => digitsValue? base (base * n + d) s
    | none => none

/-- A number of an IPv4 address: `0x` starts a hexadecimal one and `0` an octal one. -/
def ipv4Number? (s : List Char) : Option Nat :=
  match s with
  | [] => none
  | '0' :: 'x' :: rest | '0' :: 'X' :: rest => digitsValue? 16 0 rest
  | '0' :: c :: rest => digitsValue? 8 0 (c :: rest)
  | s => digitsValue? 10 0 s

/-- The labels of a domain without the empty one behind a dot at the end. -/
def labelsOf (domain : List Char) : List (List Char) :=
  let parts := Chars.split '.' domain
  if parts.getLast? = some [] then parts.dropLast else parts

/-- The domain must be an IPv4 address, because its last label is a number. -/
def endsInNumber (domain : List Char) : Bool :=
  match (labelsOf domain).getLast? with
  | none => false
  | some last => (!last.isEmpty && last.all Char.isDigit) || (ipv4Number? last).isSome

/-- The address of a domain that ends in a number. -/
def ipv4? (domain : List Char) : Option Nat := do
  let numbers ← (labelsOf domain).mapM ipv4Number?
  let last ← numbers.getLast?
  let bytes := numbers.dropLast
  if 4 < numbers.length then none
  else if bytes.any (255 < ·) || Nat.pow 256 (4 - bytes.length) ≤ last then none
  else some (bytes.zipIdx.foldl (fun n p => n + p.1 * Nat.pow 256 (3 - p.2)) last)

/-! ## IPv6 -/

/-- A decimal byte without leading zeros. -/
def decimalByte? (s : List Char) : Option Nat :=
  if s.head? = some '0' ∧ 1 < s.length then none
  else if s.isEmpty then none
  else (digitsValue? 10 0 s).filter (· ≤ 255)

/-- The two pieces that four decimal bytes with dots make. -/
def dottedPieces? (s : List Char) : Option (List Nat) := do
  match ← (Chars.split '.' s).mapM decimalByte? with
  | [a, b, c, d] => some [a * 256 + b, c * 256 + d]
  | _ => none

/-- A piece of one to four hexadecimal digits. -/
def hexPiece? (s : List Char) : Option Nat :=
  if s.isEmpty || 4 < s.length then none else digitsValue? 16 0 s

/-- The pieces between colons; the last may be four bytes with dots. -/
def pieces? : List (List Char) → Option (List Nat)
  | [] => some []
  | [last] => if last.contains '.' then dottedPieces? last else (hexPiece? last).map ([·])
  | p :: ps => do return (← hexPiece? p) :: (← pieces? ps)

/-- The pieces of a text, which may be empty. -/
def piecesOfText? (s : List Char) : Option (List Nat) :=
  if s.isEmpty then some [] else pieces? (Chars.split ':' s)

/-- The text before the first `::` and the text after it. -/
def splitDoubleColon? : List Char → Option (List Char × List Char)
  | ':' :: ':' :: s => some ([], s)
  | c :: s => (splitDoubleColon? s).map fun p => (c :: p.1, p.2)
  | [] => none

/-- The eight pieces of an address. A `::` stands for at least one zero. -/
def ipv6? (s : List Char) : Option (List Nat) :=
  match splitDoubleColon? s with
  | none => (piecesOfText? s).filter (·.length == 8)
  | some (before, after) => do
    if before.contains '.' then none
    let front ← piecesOfText? before
    let back ← piecesOfText? after
    let n := front.length + back.length
    if 7 < n then none else some (front ++ List.replicate (8 - n) 0 ++ back)

end Rebadge.Url
