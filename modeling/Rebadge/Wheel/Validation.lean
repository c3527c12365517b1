import Rebadge.Record
import Rebadge.Wheel.Scan

/-!
# Validating a wheel

A path is valid when the record has an entry for it, the archive has a file of this name, and digest
and size of the entry are those of the file. At most one defect is reported for a path.
-/

namespace Rebadge.Wheel

/-- What is wrong with a path. -/
inductive Defect where
  | missingEntry (path : String)
  | missingFile (path : String)
  | wrongDigest (path expected actual : String)
  | wrongSize (path : String) (expected : Option Nat) (actual : Nat)
deriving DecidableEq, Repr

/-- The failure that a defect amounts to. -/
def Defect.toFailure : Defect → Failure
  | missingEntry path => .integrity path "RECORD entry" "missing"
  | missingFile path => .integrity path "file in archive" "missing"
  | wrongDigest path expected actual => .integrity path expected actual
  | wrongSize path expected actual =>
    .integrity path (expected.elim "no size" toString) (toString actual)

/-- Whether a digest is there and is one of the content. -/
def digestMatches (digest : Option String) (content : Bytes) : Except DigestError Bool :=
  match digest with
  | some d => Digest.verify d content
  | none => .ok false

/-- The defect of a file that the record has an entry for. -/
def fileDefect? (path : String) (entry : RecordEntry) (content : Bytes) :
    Except Failure (Option Defect) := do
  if ← (digestMatches entry.digest content).mapError .record then
    if entry.size = some content.length then return none
    else return some (.wrongSize path entry.size content.length)
  else return some (.wrongDigest path (entry.digest.getD "") (Digest.ofContent content .standard))

/-- The defect of a path. Fails if the file cannot be read or the digest cannot be decoded. -/
def defect? (entries : List (Zip.Entry Content)) (record : Record) (path : String) :
    Except Failure (Option Defect) :=
  match record.find? path with
  | none => .ok (some (.missingEntry path))
  | some entry =>
    match Zip.find? (entries.filter (·.isFile)) path with
    | none => .ok (some (.missingFile path))
    | some file => do fileDefect? path entry (← file.read.mapError .io).image

/-- The defects of several paths, in their order. -/
def defects (entries : List (Zip.Entry Content)) (record : Record) (paths : List String) :
    Except Failure (List Defect) :=
  (paths.mapM (defect? entries record)).map (·.filterMap id)

/-- Fails with the first defect among the paths of a wheel on disk. -/
def verify (path : String) (paths : List String) : Act Unit := do
  let s ← scan path
  let entries ← Archiver.Native.openZip path
  match ← Act.ofExcept (defects entries (Record.parse s.record) paths) with
  | [] => pure ()
  | d :: _ => throw d.toFailure

end Rebadge.Wheel
