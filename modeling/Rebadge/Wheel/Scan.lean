import Rebadge.Archiver.Zip

/-!
# Scanning a wheel

A wheel is a ZIP archive with one directory for the metadata of the package, whose name ends with
`.dist-info`. The scan finds this directory, reads METADATA and RECORD in it and lists its entries.
-/

namespace Rebadge.Wheel

/-- What a scan finds. -/
structure Scan where
  /-- The directory, such as `pkg-1.0.0.dist-info`. -/
  dir : String
  metadata : String
  record : String
  /-- The names of all entries below the directory, in order. -/
  entries : List String
deriving DecidableEq, Repr

/-- What the names of such directories end with. -/
def dirSuffix : String := ".dist-info"

/-- The entry for a file of the directory. -/
def inDir (dir file : String) : String := dir ++ "/" ++ file

/-- The path of METADATA. -/
def Scan.metadataPath (s : Scan) : String := inDir s.dir "METADATA"

/-- The path of RECORD. -/
def Scan.recordPath (s : Scan) : String := inDir s.dir "RECORD"

/-- What precedes the first slash of a name. -/
def topLevel (name : String) : String :=
  .ofList (name.toList.takeWhile (· != '/'))

/-- The directory for metadata that an entry lies in, if it does. -/
def distInfoOf? (name : String) : Option String :=
  let top := topLevel name
  if Text.hasSuffix top dirSuffix && top != name then some top else none

/-- The directories for metadata among the names of the entries, each once. -/
def distInfoDirs (names : List String) : List String :=
  ((names.filterMap distInfoOf?).foldl (fun seen d => if seen.contains d then seen else d :: seen)
    []).reverse

/-- The only directory for metadata. -/
def distInfoDir (names : List String) : Except Malformation String :=
  match distInfoDirs names with
  | [] => .error .noDistInfo
  | [dir] => .ok dir
  | dirs => .error (.severalDistInfo dirs)

/-- How many entries have a file of this name in a directory for metadata, at any depth. -/
def fileCount (names : List String) (file : String) : Nat :=
  names.countP (Text.hasSuffix · (dirSuffix ++ "/" ++ file))

/-- Fails unless there is exactly one file of this name. -/
def checkUnique (names : List String) (file : String) : Except Malformation Unit :=
  let n := fileCount names file
  if n = 1 then .ok () else .error (.wrongCount file n)

/-- The text of an entry that must be there. -/
def entryText (path : String) (entries : List (Zip.Entry Content)) (name : String) :
    Except Failure String :=
  match Zip.find? entries name with
  | none => .error (.malformed path (.missing name))
  | some e => e.text.mapError .io

/-- The scan of an archive; the path occurs in errors only. -/
def scanEntries (path : String) (entries : List (Zip.Entry Content)) : Except Failure Scan := do
  let names := Zip.names entries
  let dir ← (distInfoDir names).mapError (.malformed path)
  (checkUnique names "METADATA").mapError (.malformed path)
  (checkUnique names "RECORD").mapError (.malformed path)
  let metadata ← entryText path entries (inDir dir "METADATA")
  let record ← entryText path entries (inDir dir "RECORD")
  return {
    dir, metadata, record
    entries := Sorted.sort Text.le (names.filter (Text.hasPrefix · (dir ++ "/"))) }

/-- Opens an archive and scans it. -/
def scan (path : String) : Act Scan := do
  let entries ← Archiver.Native.openZip path
  Act.ofExcept (scanEntries path entries)

end Rebadge.Wheel
