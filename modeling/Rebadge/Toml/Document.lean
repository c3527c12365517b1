import Rebadge.Toml.Scalar

/-!
# TOML documents

A document is a sequence of statements: blank lines, headers and assignments. Its table is what the
statements build one after the other, if none of them contradicts an earlier one.
-/

namespace Rebadge.Toml

open Rebadge.Parser

/-! ## Values -/

/-- Blanks, comments and line ends between the parts of an array. -/
def arrayGap : Parser Unit := do
  let _ ← many ((do let _ ← satisfy isBlank) <|> (comment *> lineEnd) <|> lineEnd)

/-- Items with commas between them; a comma may follow the last. -/
def arrayOf (item : Parser Value) : Parser Value := do
  let _ ← char '['
  let spaced : Parser Value := arrayGap *> item <* arrayGap
  let first ← optional spaced
  let items ← match first with
    | none => pure []
    | some v => do
      let more ← many (char ',' *> spaced)
      let _ ← optional (char ',')
      pure (v :: more)
  arrayGap
  let _ ← char ']'
  return .array items

/-- A key, an equals sign and a value. -/
def pairOf (item : Parser Value) : Parser (List String × String × Value) := do
  let (path, last) ← key
  let _ ← char '='
  blanks
  return (path, last, ← item)

/-- The table of pairs that do not contradict each other. -/
def tableOfPairs? (pairs : List (List String × String × Value)) : Option Table :=
  pairs.foldlM (fun t p => t.assign p.1 p.2.1 p.2.2) {}

/-- Pairs on one line with commas between them. -/
def inlineTableOf (item : Parser Value) : Parser Value := do
  let _ ← char '\x7b'
  blanks
  let pair := pairOf item <* blanks
  let first ← optional pair
  let pairs ← match first with
    | none => pure []
    | some p => do pure (p :: (← many (char ',' *> pair)))
  let _ ← char '\x7d'
  match tableOfPairs? pairs with
  | some t => return .inlineTable t
  | none => failure

/-- A value that nests less than `depth` deep. -/
def valueBelow : Nat → Parser Value
  | 0 => failure
  | depth + 1 =>
    Value.string <$> anyString
    <|> arrayOf (valueBelow depth)
    <|> inlineTableOf (valueBelow depth)
    <|> Value.moment <$> moment
    <|> Value.float <$> float
    <|> Value.integer <$> integer
    <|> (text "true" *> pure (.boolean true))
    <|> (text "false" *> pure (.boolean false))

/-! ## Statements -/

/-- A statement of a document. -/
inductive Statement where
  | blank
  /-- A header opens a table. -/
  | header (path : List String) (key : String)
  /-- A doubled header adds a table to an array. -/
  | arrayHeader (path : List String) (key : String)
  /-- An assignment sets a key of the open table. -/
  | assignment (path : List String) (key : String) (v : Value)

def statement : Parser Statement := do
  let s ←
    (do comment; lineEnd <|> done; pure .blank)
    <|> (do lineEnd; pure .blank)
    <|> (do
      text "[["
      let (path, last) ← key
      text "]]"
      lineRest
      pure (.arrayHeader path last))
    <|> (do
      text "["
      let (path, last) ← key
      text "]"
      lineRest
      pure (.header path last))
    <|> (do
      let (path, last, v) ← pairOf (valueBelow depthLimit)
      lineRest
      pure (.assignment path last v))
  blanks
  return s

/-- The statements of a text. A byte-order mark at its start is left out. -/
def statements? (s : String) : Option (List Statement) :=
  let chars := match s.toList with
    | '\uFEFF' :: rest => rest
    | cs => cs
  parseAll (blanks *> many statement) chars

/-- The root table and the path of the open table after a statement. -/
def Statement.apply (state : Table × List String) : Statement → Option (Table × List String)
  | .blank => some state
  | .header path key => do return (← state.1.define path key, path ++ [key])
  | .arrayHeader path key => do return (← state.1.append path key, path ++ [key])
  | .assignment path key v => do
    return (← state.1.within false state.2 (·.assign path key v), state.2)

/-- The table of a document, if the text is one. -/
def parse? (s : String) : Option Table := do
  let state ← (← statements? s).foldlM Statement.apply ({}, [])
  return state.1

end Rebadge.Toml
