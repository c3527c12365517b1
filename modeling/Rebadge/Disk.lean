import Rebadge.Tree

/-!
# Operations on files

A disk is a file tree with a working directory, from which relative paths start. Each operation
names its files by paths and fails as the operation of the system does. Only operations of several
steps change something when they fail.
-/

namespace Rebadge

/-- A file tree with a working directory. -/
structure Disk where
  tree : Tree := {}
  cwd : Location := []

namespace Disk

/-- Paths of this many bytes lead nowhere. -/
def pathLimit : Nat := 4096

/-- The text of the working directory. -/
def cwdText (d : Disk) : String :=
  "/" ++ "/".intercalate d.cwd

/-- The working directory is still there. -/
def hasCwd (d : Disk) : Bool :=
  match d.tree.get? d.cwd with
  | some n => n.isDir
  | none => false

/-- The absolute form of a path. Only a relative one asks for the working directory. -/
def absolute (d : Disk) (path : String) : Except IoError String :=
  match Path.absolute? d.cwdText path with
  | none => .error .emptyPath
  | some full => if Path.isAbsolute path || d.hasCwd then .ok full else .error (.os .notFound)

/-! ## Looking -/

/-- Where a path leads. There need not be a node at its end; a link at the end is followed if
`follow` is set. -/
def locate (d : Disk) (path : String) (follow : Bool) : Except IoError Location :=
  if Text.hasChar path '\x00' then .error .nulInPath
  else if path = "" then .error (.os .notFound)
  else if pathLimit ≤ path.utf8ByteSize then .error (.os .nameTooLong)
  else
    (d.tree.walk follow Tree.maxLinks (if Path.isAbsolute path then [] else d.cwd)
      (Text.split path '/')).mapError .os

/-- The location that a path leads to and the node there. -/
def find (d : Disk) (path : String) (follow : Bool) : Except IoError (Location × Node) := do
  let l ← d.locate path follow
  match d.tree.get? l with
  | some n => .ok (l, n)
  | none => .error (.os .notFound)

/-- Whether a path leads to a directory. -/
def isDir (d : Disk) (path : String) : Bool :=
  match d.find path true with
  | .ok (_, n) => n.isDir
  | .error _ => false

/-- The content of a file. -/
def read (d : Disk) (path : String) : Except IoError Content := do
  match ← d.find path true with
  | (_, .file c _) => .ok c
  | _ => .error (.os .isADirectory)

/-- The content of a file as text. -/
def readText (d : Disk) (path : String) : Except IoError String := do
  (← d.read path).text?

/-- The names in a directory, in order. -/
def list (d : Disk) (path : String) : Except IoError (List String) := do
  match ← d.find path true with
  | (l, .dir _) => .ok (d.tree.names l)
  | _ => .error (.os .notADirectory)

/-! ## Changing -/

/-- The disk with a node at a location. -/
def put (d : Disk) (l : Location) (n : Node) : Disk :=
  { d with tree := d.tree.put l n }

/-- The mode of a new file. -/
def newFileMode : Nat := 0o644

/-- The mode of a new directory. -/
def newDirMode : Nat := 0o755

/-- The mode of a file that takes another one's place. -/
def privateMode : Nat := 0o600

/-- The disk with a content in a file, which is made if there is none. -/
def write (d : Disk) (path : String) (c : Content) : Except IoError Disk := do
  let l ← d.locate path true
  match d.tree.get? l with
  | none =>
    if Path.endsInSlash path then .error (.os .isADirectory)
    else .ok (d.put l (.file c newFileMode))
  | some (.file _ mode) => .ok (d.put l (.file c mode))
  | some _ => .error (.os .isADirectory)

/-- The disk with a new file that takes the place of whatever file or link the path names. -/
def replace (d : Disk) (path : String) (c : Content) : Except IoError Disk := do
  let l ← d.locate path false
  match d.tree.get? l with
  | some (.dir _) => .error (.os .isADirectory)
  | _ => .ok (d.put l (.file c privateMode))

/-- The disk with a node where there was none. -/
def create (d : Disk) (path : String) (n : Node) : Except IoError Disk := do
  let l ← d.locate path false
  match d.tree.get? l with
  | some _ => .error (.os .alreadyExists)
  | none => .ok (d.put l n)

/-- The disk with a new directory. -/
def makeDir (d : Disk) (path : String) : Except IoError Disk :=
  d.create path (.dir newDirMode)

/-- The outcome of making a directory where one may be already. -/
def ensureDir (d : Disk) (path : String) : Disk × Except IoError Unit :=
  match d.makeDir path with
  | .ok d' => (d', .ok ())
  | .error e => (d, if d.isDir path then .ok () else .error e)

/-- The outcome of making the directory at the head of the list, where the rest of the list are the
paths above it. Paths above are only looked at where one is missing. Those that were made stay,
whatever the outcome. -/
def ensureAncestors (d : Disk) : List String → Disk × Except IoError Unit
  | [] => (d, .ok ())
  | path :: above =>
    if path = "" then (d, .ok ())
    else
      match d.makeDir path with
      | .error (.os .notFound) =>
        match ensureAncestors d above with
        | (d', .ok ()) => d'.ensureDir path
        | failed => failed
      | _ => d.ensureDir path

/-- The outcome of making a directory and all directories above it. -/
def ensureDirs (d : Disk) (path : String) : Disk × Except IoError Unit :=
  d.ensureAncestors (Path.ancestors path)

/-- The disk with the permissions of a file or directory set. -/
def setMode (d : Disk) (path : String) (mode : Nat) : Except IoError Disk := do
  match ← d.find path true with
  | (l, .dir _) => .ok (if l = [] then d else d.put l (.dir mode))
  | (l, .file c _) => .ok (d.put l (.file c mode))
  | (_, .link _) => .error (.os .tooManyLinks)

/-- The disk without a file or link. -/
def unlink (d : Disk) (path : String) : Except IoError Disk := do
  match ← d.find path false with
  | (_, .dir _) => .error (.os .isADirectory)
  | (l, _) => .ok { d with tree := d.tree.drop l }

/-- The disk without a file, a link or a directory with all that it holds. -/
def remove (d : Disk) (path : String) : Except IoError Disk := do
  let (l, _) ← d.find path false
  .ok { d with tree := d.tree.drop l }

/-- The disk with a file or directory at another path. It takes the place of a file, or of an empty
directory if it is a directory. -/
def rename (d : Disk) (source target : String) : Except IoError Disk := do
  let s ← d.locate source false
  let t ← d.locate target false
  let moved : Disk := { d with tree := d.tree.move s t }
  if Path.endsInDots source || Path.endsInDots target then .error (.os .busy)
  else
    match d.tree.get? s, d.tree.get? t with
    | none, _ => .error (.os .notFound)
    | some n, there =>
      if !n.isDir && (Path.endsInSlash source || Path.endsInSlash target) then
        .error (.os .notADirectory)
      else if s = t then .ok d
      else if s.isPrefixOf t then .error (.os .invalidArgument)
      else if t.isPrefixOf s then .error (.os .notEmpty)
      else
        match there with
        | none => .ok moved
        | some m =>
          if n.isDir && !m.isDir then .error (.os .notADirectory)
          else if !n.isDir && m.isDir then .error (.os .isADirectory)
          else if m.isDir && !d.tree.isEmptyDir t then .error (.os .notEmpty)
          else .ok moved

/-! ## Names that are free -/

/-- A name for a scratch directory. -/
def scratchName (n : Nat) : String := "scratch" ++ toString n

/-- The first scratch name that is not taken. -/
def freshName (taken : List String) : String :=
  (((List.range (taken.length + 1)).map scratchName).find? fun name => !taken.contains name).getD
    (scratchName 0)

/-! ## Files beside others -/

/-- The name of a temporary file. Of the characters behind its start only the number counts. -/
def temporaryName : String := ".tmp000000"

/-- The directory that a path names its file in. -/
def directoryOf (path : String) : String :=
  match Path.parent? path with
  | none => "."
  | some dir => if dir = "" then "." else dir

/-- The path of a temporary file beside the file of a path. It is absolute, and nothing is dropped
from it. -/
def besidePath (d : Disk) (path : String) : String :=
  Path.join (Path.join d.cwdText (directoryOf path)) temporaryName

/-- Whether the path of a temporary file beside that of a path leads anywhere. The directory is
there, and so is the working directory of a relative path, when the path leads to a file. -/
def beside (d : Disk) (path : String) : Except IoError Unit :=
  if pathLimit ≤ (d.besidePath path).utf8ByteSize then
    .error (.temporary (d.besidePath path) (.os .nameTooLong))
  else .ok ()

end Disk
end Rebadge
