import Rebadge.Release

/-!
# The index of a package

An index is a JSON object with a list `files` of objects that have a `filename` and a `url`. Other
keys are skipped. The first fault of the text is reported with its line and column.
-/

namespace Rebadge.Index

/-- What is wrong with an index. -/
inductive Problem where
  | endInValue
  | endInList
  | endInObject
  | endInString
  | expectedColon
  | expectedListEnd
  | expectedObjectEnd
  | expectedIdentifier
  | expectedValue
  | invalidEscape
  | invalidNumber
  | controlCharacter
  | invalidCodePoint
  | loneSurrogate
  | keyMustBeString
  | trailingCharacters
  | trailingComma
  | missingField (name : String)
  | duplicateField (name : String)
  | wrongType (found expected : String)
  | wrongLength (found : Nat) (expected : String)
deriving DecidableEq, Repr

/-- The wording of the problem. -/
def Problem.message : Problem → String
  | endInValue => "EOF while parsing a value"
  | endInList => "EOF while parsing a list"
  | endInObject => "EOF while parsing an object"
  | endInString => "EOF while parsing a string"
  | expectedColon => "expected \x60:\x60"
  | expectedListEnd => "expected \x60,\x60 or \x60]\x60"
  | expectedObjectEnd => "expected \x60,\x60 or \x60\x7d\x60"
  | expectedIdentifier => "expected ident"
  | expectedValue => "expected value"
  | invalidEscape => "invalid escape"
  | invalidNumber => "invalid number"
  | controlCharacter => "control character (\\u0000-\\u001F) found while parsing a string"
  | invalidCodePoint => "invalid unicode code point"
  | loneSurrogate => "lone leading surrogate in hex escape"
  | keyMustBeString => "key must be a string"
  | trailingCharacters => "trailing characters"
  | trailingComma => "trailing comma"
  | missingField name => "missing field \x60" ++ name ++ "\x60"
  | duplicateField name => "duplicate field \x60" ++ name ++ "\x60"
  | wrongType found expected => "invalid type: " ++ found ++ ", expected " ++ expected
  | wrongLength found expected => "invalid length " ++ toString found ++ ", expected " ++ expected

/-- A problem and the number of characters after the place where it was met. -/
structure Fault where
  problem : Problem
  left : Nat
deriving DecidableEq, Repr

/-- Takes characters from the front of the text or ends with a fault. -/
abbrev Reader := EStateM Fault (List Char)

variable {α : Type}

/-! ## Single characters -/

/-- A fault behind what was taken. -/
def failHere (p : Problem) : Reader α := fun s => .error ⟨p, s.length⟩ s

/-- A fault at the next character. -/
def failNext (p : Problem) : Reader α := fun s => .error ⟨p, s.length - 1⟩ s

def isBlank (c : Char) : Bool := c == ' ' || c == '\n' || c == '\t' || c == '\r'

/-- The next character that is no blank; the blanks before it are taken. -/
def peek : Reader (Option Char) := fun s =>
  let s' := s.dropWhile isBlank
  .ok s'.head? s'

/-- Takes the next character. -/
def skip : Reader Unit := fun s => .ok () s.tail

/-- Takes characters as long as they satisfy `ok`. -/
def takeRun (ok : Char → Bool) : Reader (List Char) := fun s =>
  .ok (s.takeWhile ok) (s.dropWhile ok)

/-- Takes a word of which the first character was seen. -/
def word (w : String) : Reader Unit := fun s =>
  match w.toList.isPrefixOf? s with
  | some rest => .ok () rest
  | none => .error ⟨.expectedIdentifier, s.length - 1⟩ s

/-! ## Strings and numbers -/

def hexDigit? (c : Char) : Option Nat :=
  if c.isDigit then some (c.toNat - 48)
  else if 'a' ≤ c ∧ c ≤ 'f' then some (c.toNat - 87)
  else if 'A' ≤ c ∧ c ≤ 'F' then some (c.toNat - 55)
  else none

/-- The number that four hexadecimal digits are. -/
def hex4? : List Char → Option (Nat × List Char)
  | a :: b :: c :: d :: rest => do
    let n := ((← hexDigit? a) * 16 + (← hexDigit? b)) * 256 + (← hexDigit? c) * 16 + (← hexDigit? d)
    return (n, rest)
  | _ => none

/-- The character of an escape of one letter. -/
def simpleEscape? (c : Char) : Option Char :=
  [('"', '"'), ('\\', '\\'), ('/', '/'), ('b', '\x08'), ('f', '\x0c'), ('n', '\n'), ('r', '\r'),
    ('t', '\t')].lookup c

/-- The character after `\u`, which may take two escapes. -/
def unicodeEscape (s : List Char) : Except Problem (Char × List Char) :=
  match hex4? s with
  | none => .error .invalidEscape
  | some (n, rest) =>
    if 0xdc00 ≤ n ∧ n < 0xe000 then .error .loneSurrogate
    else if 0xd800 ≤ n ∧ n < 0xdc00 then
      match rest with
      | '\\' :: 'u' :: more =>
        match hex4? more with
        | some (m, rest') =>
          if 0xdc00 ≤ m ∧ m < 0xe000 then
            .ok (.ofNat (0x10000 + (n - 0xd800) * 0x400 + (m - 0xdc00)), rest')
          else .error .loneSurrogate
        | none => .error .invalidEscape
      | _ => .error .loneSurrogate
    else .ok (.ofNat n, rest)

/-- The rest of a string whose opening quote was taken, after the characters `done` in reverse
order. The first argument bounds the number of characters. -/
def stringFrom (done : List Char) : Nat → List Char → EStateM.Result Fault (List Char) String
  | 0, s => .error ⟨.endInString, s.length⟩ s
  | _, [] => .error ⟨.endInString, 0⟩ []
  | n + 1, c :: s =>
    if c = '"' then .ok (.ofList done.reverse) s
    else if c = '\\' then
      match s with
      | [] => .error ⟨.endInString, 0⟩ []
      | 'u' :: rest =>
        match unicodeEscape rest with
        | .ok (d, rest') => stringFrom (d :: done) n rest'
        | .error p => .error ⟨p, rest.length⟩ rest
      | d :: rest =>
        match simpleEscape? d with
        | some e => stringFrom (e :: done) n rest
        | none => .error ⟨.invalidEscape, rest.length⟩ rest
    else if c.toNat < 0x20 then .error ⟨.controlCharacter, s.length⟩ s
    else stringFrom (c :: done) n s

/-- A string whose opening quote comes next. -/
def string : Reader String := fun s => stringFrom [] s.length s.tail

/-- The characters of a number: a sign, digits without a zero in front, a fraction, an exponent. -/
def number : Reader String := do
  let sign ← takeRun (· == '-')
  let whole ← takeRun Char.isDigit
  if 1 < sign.length ∨ whole = [] ∨
    (whole.head? = some '0' ∧ 1 < whole.length) then failNext .invalidNumber
  let fraction ← takeRun (· == '.')
  let tenths ← if fraction = [] then pure [] else takeRun Char.isDigit
  if 1 < fraction.length ∨ (fraction ≠ [] ∧ tenths = []) then failNext .invalidNumber
  let mark ← takeRun fun c => c == 'e' || c == 'E'
  let expSign ← if mark = [] then pure [] else takeRun fun c => c == '+' || c == '-'
  let digits ← if mark = [] then pure [] else takeRun Char.isDigit
  if 1 < mark.length ∨ 1 < expSign.length ∨ (mark ≠ [] ∧ digits = []) then failNext .invalidNumber
  return .ofList (sign ++ whole ++ fraction ++ tenths ++ mark ++ expSign ++ digits)

/-- Whether a number was written as an integer. -/
def isInteger (text : String) : Bool := text.toList.all fun c => c == '-' || c.isDigit

/-! ## Lists and objects -/

/-- The items of a list from one on; `first` says that none came before. The first argument bounds
their number. -/
def itemsFrom (item : Reader α) : Nat → Bool → Reader (List α)
  | 0, _ => failHere .endInList
  | n + 1, first => do
    match ← peek with
    | none => failNext .endInList
    | some ']' => skip; return []
    | some ',' =>
      if first then failNext .expectedValue
      skip
      match ← peek with
      | some ']' => failNext .trailingComma
      | none => failNext .endInValue
      | _ => return (← item) :: (← itemsFrom item n false)
    | some _ =>
      if first then return (← item) :: (← itemsFrom item n false) else failNext .expectedListEnd

/-- The items of a list whose bracket comes next. -/
def list (item : Reader α) : Reader (List α) := do
  skip
  itemsFrom item ((← get).length + 1) true

/-- A key with its colon and what `value` reads behind it. -/
def member (value : String → Reader α) : Reader α := do
  match ← peek with
  | some '"' =>
    let key ← string
    match ← peek with
    | some ':' => skip; value key
    | some _ => failNext .expectedColon
    | none => failNext .endInObject
  | some '\x7d' => failNext .trailingComma
  | some _ => failNext .keyMustBeString
  | none => failNext .endInValue

/-- The members of an object from one on; `first` says that none came before. -/
def membersFrom (value : String → Reader α) : Nat → Bool → Reader (List α)
  | 0, _ => failHere .endInObject
  | n + 1, first => do
    match ← peek with
    | none => failNext .endInObject
    | some '\x7d' => skip; return []
    | some ',' =>
      if first then failNext .keyMustBeString
      skip
      return (← member value) :: (← membersFrom value n false)
    | some _ =>
      if first then return (← member value) :: (← membersFrom value n false)
      else failNext .expectedObjectEnd

/-- The members of an object whose brace comes next. -/
def object (value : String → Reader α) : Reader (List α) := do
  skip
  membersFrom value ((← get).length + 1) true

/-- How deep skipped values may be nested. -/
def depthLimit : Nat := 4096

/-- Skips a value. -/
def skipValue : Nat → Reader Unit
  | 0 => failHere .expectedValue
  | depth + 1 => do
    match ← peek with
    | none => failNext .endInValue
    | some 'n' => word "null"
    | some 't' => word "true"
    | some 'f' => word "false"
    | some '"' => discard string
    | some '[' => discard (list (skipValue depth))
    | some '\x7b' => discard (object fun _ => skipValue depth)
    | some c => if c == '-' || c.isDigit then discard number else failNext .expectedValue

/-- Refuses a value of another type than the expected one. -/
def refuse (expected : String) : Reader α := do
  match ← peek with
  | none => failNext .endInValue
  | some 'n' => word "null"; failHere (.wrongType "null" expected)
  | some 't' => word "true"; failHere (.wrongType "boolean \x60true\x60" expected)
  | some 'f' => word "false"; failHere (.wrongType "boolean \x60false\x60" expected)
  | some '"' =>
    let s ← string
    failHere (.wrongType ("string \"" ++ s ++ "\"") expected)
  | some '[' => failHere (.wrongType "sequence" expected)
  | some '\x7b' => failHere (.wrongType "map" expected)
  | some c =>
    if c == '-' || c.isDigit then
      let text ← number
      let kind := if isInteger text then "integer" else "floating point"
      failHere (.wrongType (kind ++ " \x60" ++ text ++ "\x60") expected)
    else failNext .expectedValue

/-! ## The index -/

/-- A text. -/
def textValue : Reader String := do
  match ← peek with
  | some '"' => string
  | _ => refuse "a string"

/-- The only value of a key among members that may be skipped ones. -/
def field (name : String) (members : List (Option (String × α))) : Reader α := do
  match members.filterMap fun m => m.bind fun (k, v) => if k = name then some v else none with
  | [] => failHere (.missingField name)
  | [v] => return v
  | _ => failHere (.duplicateField name)

/-- A file of the index. -/
def artifact : Reader Artifact := do
  match ← peek with
  | some '\x7b' =>
    let members ← object fun key => do
      if key = "filename" ∨ key = "url" then return some (key, ← textValue)
      else
        skipValue depthLimit
        return none
    return ⟨← field "filename" members, ← field "url" members⟩
  | some '[' =>
    match ← list textValue with
    | [filename, url] => return ⟨filename, url⟩
    | items => failHere (.wrongLength items.length "struct Artifact with 2 elements")
  | _ => refuse "struct Artifact"

/-- The files of the index. -/
def artifacts : Reader (List Artifact) := do
  match ← peek with
  | some '[' => list artifact
  | _ => refuse "a sequence"

/-- The whole index. -/
def index : Reader (List Artifact) := do
  let files ← match ← peek with
    | some '\x7b' =>
      let members ← object fun key => do
        if key = "files" then return some (key, ← artifacts)
        else
          skipValue depthLimit
          return none
      field "files" members
    | some '[' =>
      match ← list artifacts with
      | [files] => pure files
      | items => failHere (.wrongLength items.length "struct SimpleIndex with 1 element")
    | _ => refuse "struct SimpleIndex"
  match ← peek with
  | none => return files
  | some _ => failNext .trailingCharacters

/-- The place behind a part of a text: its line, and its column in bytes. -/
def place (before : List Char) : Nat × Nat :=
  let column := (before.reverse.takeWhile (· != '\n')).foldl (fun n c => n + c.utf8Size) 0
  (1 + before.countP (· == '\n'), column)

/-- The wording of a fault in a text. -/
def Fault.message (f : Fault) (text : List Char) : String :=
  let (line, column) := place (text.take (text.length - f.left))
  f.problem.message ++ " at line " ++ toString line ++ " column " ++ toString column

/-- The files that an index lists. -/
def parse (text : String) : Except Failure (List Artifact) :=
  match index text.toList with
  | .ok files _ => .ok files
  | .error f _ => .error (.index (f.message text.toList))

end Rebadge.Index
