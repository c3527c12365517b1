import Rebadge.Text.Basic

/-!
# Tables of ranges

A table gives a value to every code point: that of the last range that starts at or before it.
-/

namespace Rebadge.Text.Unicode

/-- The value of a hexadecimal digit. -/
def hexDigit (c : Char) : Nat :=
  if c.isDigit then c.toNat - 48 else c.toNat - 55

/-- The number that hexadecimal digits are. -/
def hexNumber (s : List Char) : Nat :=
  s.foldl (fun n c => 16 * n + hexDigit c) 0

/-- The words of a text. -/
def words (s : String) : List (List Char) :=
  ((Chars.split '\n' s.toList).flatMap (Chars.split ' ')).filter (· ≠ [])

/-- The part of a word before a separator and the part after it. -/
def cutAt (sep : Char) (word : List Char) : List Char × List Char :=
  (word.takeWhile (· != sep), (word.dropWhile (· != sep)).drop 1)

/-- The starts of ranges with their values. -/
abbrev RangeTable (α : Type) := List (Nat × α)

/-- The table that a text of words `<first>:<value>` describes. -/
def rangeTable (text : String) : RangeTable String :=
  (words text).map fun word =>
    let (start, value) := cutAt ':' word
    (hexNumber start, .ofList value)

/-- The range of a code point: its start and value, or the given ones if the table starts later. -/
def RangeTable.rangeOf {α : Type} (n : Nat) (range : Nat × α) : RangeTable α → Nat × α
  | [] => range
  | (start, value) :: rest => if n < start then range else RangeTable.rangeOf n (start, value) rest

/-- The value of a code point. -/
def RangeTable.value {α : Type} (table : RangeTable α) (dflt : α) (n : Nat) : α :=
  (RangeTable.rangeOf n (0, dflt) table).2

end Rebadge.Text.Unicode
