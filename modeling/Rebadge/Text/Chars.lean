/-!
# Texts as lists of characters

Search, replacement and line splitting on lists of characters. Replacement works from left to right,
and an occurrence that was replaced is never searched again.
-/

namespace Rebadge.Chars

/-! ## Replacement -/

/-- The text with every occurrence of a nonempty `pat` replaced, where `skip` characters at the
front belong to an occurrence that was already replaced. -/
def replaceFrom (pat rep : List Char) : Nat → List Char → List Char
  | _, [] => []
  | skip + 1, _ :: s => replaceFrom pat rep skip s
  | 0, c :: s =>
    if pat.isPrefixOf (c :: s) then rep ++ replaceFrom pat rep (pat.length - 1) s
    else c :: replaceFrom pat rep 0 s

/-- The text with every occurrence of `pat` replaced by `rep`. An empty `pat` occurs before every
character and at the end. -/
def replaceAll (pat rep s : List Char) : List Char :=
  if pat = [] then s.flatMap (fun c => rep ++ [c]) ++ rep else replaceFrom pat rep 0 s

/-- The text with the first occurrence of `pat` replaced by `rep`. -/
def replaceFirst (pat rep : List Char) : List Char → List Char
  | [] => if pat = [] then rep else []
  | c :: s =>
    if pat.isPrefixOf (c :: s) then rep ++ (c :: s).drop pat.length
    else c :: replaceFirst pat rep s

theorem replaceFrom_eq_drop (pat rep : List Char) (skip : Nat) (s : List Char) :
    replaceFrom pat rep skip s = replaceFrom pat rep 0 (s.drop skip) := by
  induction skip generalizing s with
  | zero => simp
  | succ k ih => cases s with
    | nil => simp [replaceFrom]
    | cons c s => simpa [replaceFrom] using ih s

/-- Some position of the text starts an occurrence of `pat`. -/
def contains (pat : List Char) : List Char → Bool
  | [] => pat.isEmpty
  | c :: s => pat.isPrefixOf (c :: s) || contains pat s

/-! ## Splitting -/

/-- The pieces of the text between separators; `n` separators give `n + 1` pieces. -/
def split (sep : Char) : List Char → List (List Char)
  | [] => [[]]
  | c :: s =>
    if c = sep then [] :: split sep s
    else match split sep s with
      | [] => [[c]]
      | p :: ps => (c :: p) :: ps

/-- The pieces with a separator between each two. -/
def join (sep : Char) (pieces : List (List Char)) : List Char :=
  [sep].intercalate pieces

theorem split_ne_nil (sep : Char) (s : List Char) : split sep s ≠ [] := by
  cases s with
  | nil => simp [split]
  | cons c s =>
    simp only [split]
    split
    · simp
    · split <;> simp

/-- Line without the carriage return that its line feed may follow. -/
def dropCarriageReturn (line : List Char) : List Char :=
  if line.getLast? = some '\r' then line.dropLast else line

/-- The lines of a text: each ends at a line feed, together with the carriage return before it; what
follows the last line feed is a line unless it is empty. -/
def lines (s : List Char) : List (List Char) :=
  let pieces := split '\n' s
  let last := pieces.getLastD []
  pieces.dropLast.map dropCarriageReturn ++ if last.isEmpty then [] else [last]

/-! ## Ends -/

/-- The text without its longest prefix of characters that satisfy `p`, seen from the end. -/
def dropEndWhile (p : Char → Bool) (s : List Char) : List Char :=
  (s.reverse.dropWhile p).reverse

/-- What precedes `suffix` at the end of the text. -/
def stripSuffix? (suffix s : List Char) : Option (List Char) :=
  (suffix.reverse.isPrefixOf? s.reverse).map List.reverse

end Rebadge.Chars
