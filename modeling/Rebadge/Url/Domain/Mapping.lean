import Rebadge.Text.Unicode.RangeTable
import Rebadge.Url.Domain.MappingTable

/-!
# Mapping the characters of a domain name
-/

namespace Rebadge.Url.Domain

open Text.Unicode

/-- What becomes of the characters of a range. -/
inductive Rule where
  | valid
  | refused
  | omitted
  | replaced (codes : List Nat)
  /-- The characters of the range are replaced by those from the code on. -/
  | shifted (code : Nat)
  /-- Each second character is valid, and the one before it is replaced by it. -/
  | paired
deriving DecidableEq, Repr

/-- The rule of a letter with its codes. -/
def ruleOf (letter : Char) (codes : List Nat) : Rule :=
  match letter with
  | 'V' => .valid
  | 'I' => .omitted
  | 'M' => .replaced codes
  | 'S' => .shifted (codes.headD 0)
  | 'P' => .paired
  | _ => .refused

/-- The start of a range and its rule. -/
def decodeRange (word : List Char) : Nat × Rule :=
  let start := word.takeWhile fun c => c.isDigit || ('A' ≤ c && c ≤ 'F')
  let codes := (Chars.split ',' (word.drop (start.length + 1))).map hexNumber
  (hexNumber start, ruleOf (word.getD start.length 'X') codes)

def mappingTable : RangeTable Rule := (words mappingText).map decodeRange

/-- What replaces a character; nothing if it is refused. -/
def mapped? (n : Nat) : Option (List Nat) :=
  let (start, rule) := RangeTable.rangeOf n (0, .refused) mappingTable
  match rule with
  | .valid => some [n]
  | .refused => none
  | .omitted => some []
  | .replaced codes => some codes
  | .shifted code => some [code + (n - start)]
  | .paired => some [if (n - start) % 2 = 0 then n + 1 else n]

end Rebadge.Url.Domain
