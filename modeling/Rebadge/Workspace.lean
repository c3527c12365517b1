import Rebadge.Disk

/-!
# Acts

An act changes the workspace and ends with a result or a failure. What it changed before it failed
stays changed. The workspace is a disk with a place for scratch directories, together with a journal
of the programs that were started and the requests that were sent.
-/

namespace Rebadge

/-- A program with its arguments and the directory that it runs in. -/
structure Invocation where
  program : String
  args : List String
  /-- The directory that the program runs in. -/
  dir : Location
deriving DecidableEq, Repr

/-- The words of the invocation, separated by blanks. -/
def Invocation.line (i : Invocation) : String :=
  " ".intercalate (i.program :: i.args)

/-- A program that was started, with the disk that it found. -/
structure Start where
  invocation : Invocation
  disk : Disk

/-- A request for the content at a URL. -/
structure Request where
  url : String
  /-- The kind of content that is asked for. -/
  accept : String
deriving DecidableEq, Repr

/-- The steps of writing an archive anew: a file is made beside the archive, takes the new entries,
and is put in the place of the archive. -/
inductive Rewriting where
  | make
  | fill (entries : List (Zip.Entry Content))
  | place (entries : List (Zip.Entry Content))

/-- What acts change. -/
structure Workspace where
  disk : Disk
  /-- The directory that scratch directories are made in, by its absolute path. -/
  tempDir : String := "/tmp"
  /-- Why the system refuses a step of writing the archive at a path anew, if it does: there may be
  no space left, or the packed form of new data may be too long where the data is not. -/
  refuses : String → Rewriting → Option IoError := fun _ _ => none
  /-- The programs that were started, the first one first. -/
  started : List Start := []
  /-- The requests that were answered, the first one first. -/
  requests : List Request := []

/-- What changes the workspace and ends with a result or a failure. -/
abbrev Act := EStateM Failure Workspace

/-- What the system says to a step of writing an archive anew. -/
def Workspace.grant (w : Workspace) (archive : String) (step : Rewriting) : Except IoError Unit :=
  match w.refuses archive step with
  | none => .ok ()
  | some e => .error e

namespace Act

variable {α : Type}

/-- The disk. -/
def disk : Act Disk := return (← get).disk

/-- Ends with the result of a step that changes nothing. -/
def ofExcept (x : Except Failure α) : Act α :=
  match x with
  | .ok a => pure a
  | .error e => throw e

/-- Ends with what a look at the disk shows. -/
def look (f : Disk → Except IoError α) : Act α := do
  ofExcept ((f (← disk)).mapError .io)

/-- Puts another disk in the place of the disk. -/
def setDisk (d : Disk) : Act Unit :=
  modify fun w => { w with disk := d }

/-- Changes the disk by one step. -/
def change (f : Disk → Except IoError Disk) : Act Unit := do
  setDisk (← look f)

/-- Makes a directory and all directories above it. -/
def makeDirs (path : String) : Act Unit := do
  let (d, outcome) := (← disk).ensureDirs path
  setDisk d
  ofExcept (outcome.mapError .io)

/-- Makes the directories above a path, if there are any. -/
def makeParents (path : String) : Act Unit :=
  match Path.parent? path with
  | some parent => makeDirs parent
  | none => pure ()

/-- Ends with the outcome of an act, whether it fails or not. -/
def attempt (act : Act α) : Act (Except Failure α) := fun w =>
  match act w with
  | .ok a w' => .ok (.ok a) w'
  | .error e w' => .ok (.error e) w'

/-- Performs an act with the path of a fresh directory, which is removed afterwards in any case. -/
def withScratch (body : String → Act α) : Act α := do
  let w ← get
  let taken := (w.disk.list w.tempDir).toOption.getD []
  let path := Path.join w.tempDir (Disk.freshName taken)
  change (·.makeDir path)
  let outcome ← attempt (body path)
  modify fun w => { w with disk := (w.disk.remove path).toOption.getD w.disk }
  ofExcept outcome

end Act
end Rebadge
