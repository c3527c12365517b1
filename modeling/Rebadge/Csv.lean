/-!
# Comma-separated rows

A row is a list of fields. A field that starts with a quote runs to the next single quote, and a
doubled quote inside stands for one; what follows the closing quote is taken as it is. Rows end at a
line feed, a carriage return or both, and blank lines are no rows.
-/

namespace Rebadge.Csv

/-- A row of fields. -/
abbrev Row := List (List Char)

/-- Where the reader stands. -/
inductive State where
  /-- Before a row. -/
  | rowStart
  /-- Before a field. -/
  | fieldStart
  /-- In a field that is not quoted, or behind its closing quote. -/
  | plain
  /-- Between quotes. -/
  | quoted
  /-- Behind a quote in a quoted field. -/
  | quoteSeen
deriving DecidableEq, Repr

def isLineEnd (c : Char) : Bool := c == '\n' || c == '\r'

/-- The rows of the input, where `row` and `field` are the complete fields and the characters of the
open row and field that were already read. -/
def read : State → Row → List Char → List Char → List Row
  | .rowStart, _, _, [] => []
  | _, row, field, [] => [row ++ [field]]
  | .quoted, row, field, c :: s =>
    if c = '"' then read .quoteSeen row field s else read .quoted row (field ++ [c]) s
  | .rowStart, row, field, c :: s =>
    if isLineEnd c then read .rowStart row field s
    else if c = '"' then read .quoted row field s
    else if c = ',' then read .fieldStart (row ++ [field]) [] s
    else read .plain row (field ++ [c]) s
  | .fieldStart, row, field, c :: s =>
    if isLineEnd c then (row ++ [field]) :: read .rowStart [] [] s
    else if c = '"' then read .quoted row field s
    else if c = ',' then read .fieldStart (row ++ [field]) [] s
    else read .plain row (field ++ [c]) s
  | .plain, row, field, c :: s =>
    if isLineEnd c then (row ++ [field]) :: read .rowStart [] [] s
    else if c = ',' then read .fieldStart (row ++ [field]) [] s
    else read .plain row (field ++ [c]) s
  | .quoteSeen, row, field, c :: s =>
    if c = '"' then read .quoted row (field ++ [c]) s
    else if isLineEnd c then (row ++ [field]) :: read .rowStart [] [] s
    else if c = ',' then read .fieldStart (row ++ [field]) [] s
    else read .plain row (field ++ [c]) s

/-- The text without a byte-order mark at its start. -/
def dropByteOrderMark : List Char → List Char
  | c :: s => if c = '\uFEFF' then s else c :: s
  | [] => []

/-- The rows of a text. -/
def rows (s : List Char) : List Row :=
  read .rowStart [] [] (dropByteOrderMark s)

end Rebadge.Csv
