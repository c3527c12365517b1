/-!
# Parsers on lists of characters

A parser takes characters from the front of the input or fails. Repetition stops when an item fails
or takes nothing, so it ends on every input.
-/

namespace Rebadge

/-- A parser with results of type `α`. -/
abbrev Parser (α : Type) := StateT (List Char) Option α

namespace Parser

variable {α : Type}

/-- The results of `p`, repeated from the input `s`, and the input that is left. -/
def manyFrom (p : Parser α) (s : List Char) : List α × List Char :=
  match p s with
  | none => ([], s)
  | some (a, rest) =>
    if rest.length < s.length then
      let r := manyFrom p rest
      (a :: r.1, r.2)
    else ([], s)
termination_by s.length

/-- As many results of `p` as there are. -/
def many (p : Parser α) : Parser (List α) := fun s => some (manyFrom p s)

/-- A character that satisfies `ok`. -/
def satisfy (ok : Char → Bool) : Parser Char
  | c :: s => if ok c then some (c, s) else none
  | [] => none

/-- The given character. -/
def char (c : Char) : Parser Char := satisfy (· == c)

/-- The given text. -/
def text (t : String) : Parser Unit := fun s => (t.toList.isPrefixOf? s).map ((), ·)

/-- The longest run of characters that satisfy `ok`, which may be empty. -/
def run (ok : Char → Bool) : Parser (List Char) := fun s => some (s.takeWhile ok, s.dropWhile ok)

/-- The longest run of characters that satisfy `ok`, which must not be empty. -/
def run1 (ok : Char → Bool) : Parser (List Char) := do
  let cs ← run ok
  if cs.isEmpty then failure else return cs

/-- Succeeds without taking anything if `p` succeeds here. -/
def ahead (p : Parser α) : Parser Unit := fun s => (p s).map fun _ => ((), s)

/-- The end of the input. -/
def done : Parser Unit := fun s => if s.isEmpty then some ((), s) else none

/-- The characters that `p` takes. -/
def taken (p : Parser α) : Parser (List Char) := fun s =>
  (p s).map fun r => (s.take (s.length - r.2.length), r.2)

/-- The result of `p` on a whole input. -/
def parseAll (p : Parser α) (s : List Char) : Option α :=
  match p s with
  | some (a, []) => some a
  | _ => none

end Parser
end Rebadge
