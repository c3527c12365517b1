import Rebadge.Csv
import Rebadge.Text.Basic

/-!
# The record of a wheel

The record lists the files of a wheel, one row each: path, digest, size. Digest and size may be
missing.
-/

namespace Rebadge

/-- One row of a record. -/
structure RecordEntry where
  path : String
  digest : Option String
  size : Option Nat
deriving DecidableEq, Repr

/-- The rows of a record that name a path. -/
structure Record where
  entries : List RecordEntry
deriving DecidableEq, Repr

namespace Record

/-- The value of decimal digits read after `n`. -/
def decimalValue? (n : Nat) : List Char → Option Nat
  | [] => some n
  | c :: s => if c.isDigit then decimalValue? (10 * n + (c.toNat - 48)) s else none

/-- A size: decimal digits after an optional `+`, with a value below `2 ^ 64`. -/
def size? (field : List Char) : Option Nat := do
  let digits := if field.head? = some '+' then field.tail else field
  if digits.isEmpty then none
  let n ← decimalValue? 0 digits
  if n < 0x10000000000000000 then some n else none

/-- The entry of a row, unless its path is empty. -/
def entry? (row : Csv.Row) : Option RecordEntry :=
  let path := row.headD []
  let digest := (row[1]?).getD []
  if path = [] then none
  else some
    { path := .ofList path
      digest := if digest = [] then none else some (.ofList digest)
      size := (row[2]?).bind size? }

/-- The record that a text holds. Every text holds one, as rows may have any number of fields. -/
def parse (text : String) : Record :=
  ⟨(Csv.rows text.toList).filterMap entry?⟩

/-- The first entry of a path. -/
def find? (r : Record) (path : String) : Option RecordEntry :=
  r.entries.find? (·.path == path)

end Record
end Rebadge
