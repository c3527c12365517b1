import Rebadge.Text.Basic

/-!
# Paths

A path is a text whose components are separated by `/`. Empty components and `.` name nothing of
their own, except that a leading `.` counts as a component. These operations look at the text alone;
what a path leads to is decided by the tree.
-/

namespace Rebadge.Path

/-- A component of a path. -/
inductive Component where
  /-- The root, before all other components of an absolute path. -/
  | root
  /-- A `.` at the start of a relative path. -/
  | current
  /-- The component `..`. -/
  | parent
  /-- A name. -/
  | normal (name : String)
deriving DecidableEq, Repr

/-- The text of a component. -/
def Component.text : Component → String
  | .root => "/"
  | .current => "."
  | .parent => ".."
  | .normal name => name

/-- A path is absolute when it starts with `/`. -/
def isAbsolute (p : String) : Bool :=
  p.toList.head? == some '/'

/-- The component that a piece between slashes stands for, if any. -/
def ofPiece? (piece : String) : Option Component :=
  if piece = "" ∨ piece = "." then none
  else if piece = ".." then some .parent
  else some (.normal piece)

/-- The components of a path. -/
def components (p : String) : List Component :=
  let pieces := Text.split p '/'
  let start := if isAbsolute p then [.root] else if pieces.head? = some "." then [.current] else []
  start ++ pieces.filterMap ofPiece?

/-- Whether the path ends with a slash. -/
def endsInSlash (p : String) : Bool :=
  p.toList.getLast? == some '/'

/-- The path `part` seen from `base`. An absolute `part` stands for itself. -/
def join (base part : String) : String :=
  if isAbsolute part ∨ base = "" then part
  else if endsInSlash base then base ++ part
  else base ++ "/" ++ part

/-- The last component, if it is a name. -/
def fileName? (p : String) : Option String :=
  match (components p).getLast? with
  | some (.normal name) => some name
  | _ => none

/-- Pieces without the ones at the end that name nothing; a first piece `.` of a relative path
stays. -/
def dropIdle (absolute : Bool) (pieces : List (List Char)) : List (List Char) :=
  let rest := (pieces.reverse.dropWhile fun p => p == [] || p == ['.']).reverse
  if rest = [] ∧ !absolute ∧ pieces.head? = some ['.'] then [['.']] else rest

/-- The path without its last component, or nothing if there is none to drop. The text that stays is
kept as it is. -/
def parent? (p : String) : Option String :=
  let absolute := isAbsolute p
  let pieces := Chars.split '/' p.toList
  match dropIdle absolute pieces with
  | [] => none
  | kept =>
    let rest := dropIdle absolute kept.dropLast
    if absolute ∧ rest = [] then some "/"
    else some (.ofList (Chars.join '/' rest))

/-- The paths above `p`, the nearest first, up to a number of them. -/
def above : Nat → String → List String
  | 0, _ => []
  | n + 1, p =>
    match parent? p with
    | none => []
    | some q => q :: above n q

/-- The path and the paths above it, the nearest first. Each is shorter than the one before. -/
def ancestors (p : String) : List String :=
  p :: above p.length p

/-- Whether the last piece of the path that is not empty is no name: there is none, or it is `.` or
`..`. -/
def endsInDots (p : String) : Bool :=
  match ((Text.split p '/').filter (· != "")).getLast? with
  | none => true
  | some piece => piece == "." || piece == ".."

/-- The components that follow `base` in `p`, if `p` starts with all components of `base`. -/
def relativeTo? (base p : String) : Option (List Component) :=
  (components base).isPrefixOf? (components p)

/-- Where the absolute form of a path starts: at the working directory, or at the root. Exactly two
slashes at the start are kept. -/
def start (cwd p : String) : String :=
  if !isAbsolute p then cwd
  else if Text.hasPrefix p "//" && !Text.hasPrefix p "///" then "//"
  else "/"

/-- The absolute form of a path for a given working directory, or nothing for the empty path.
Components `..` stay. -/
def absolute? (cwd p : String) : Option String :=
  if p = "" then none
  else
    let names := (components p).filter (fun c => c != .root && c != .current)
    let base := start cwd p
    let full := names.foldl (fun acc c => join acc c.text) base
    some (if endsInSlash p && !endsInSlash full then full ++ "/" else full)

end Rebadge.Path
