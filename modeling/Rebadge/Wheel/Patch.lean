import Rebadge.Archiver
import Rebadge.Config.Load
import Rebadge.Metadata
import Rebadge.Record.Fork
import Rebadge.Wheel.Validation

/-!
# Patching a wheel

The passes go over the archive one after the other: METADATA, RECORD, each tracked file, and the
move of the directory for metadata. At the end the replaced files are validated against the record.
-/

namespace Rebadge.Wheel

/-- Whether a name is that of a directory for metadata of a package: `<dist>-`, anything,
`.dist-info`. -/
def isDistInfoOf (dist name : String) : Bool :=
  match Text.stripPrefix? (dist ++ "-") name with
  | some rest => Text.hasSuffix rest dirSuffix
  | none => false

/-- The paths below a directory whose names are those of directories for metadata of a package.
Slashes in the package name lead into directories. -/
def distInfoPaths (d : Disk) (dir dist : String) : List String :=
  let pieces := Text.split dist '/'
  let parent := pieces.dropLast.foldl Path.join dir
  let names := (d.list parent).toOption.getD []
  (names.filter (isDistInfoOf (pieces.getLastD ""))).map (Path.join parent)

/-- The only such path. -/
def findDistInfo (d : Disk) (dir dist wheel : String) : Except Failure String :=
  match distInfoPaths d dir dist with
  | [path] => .ok path
  | paths => .error (.malformed wheel (.distInfoCount dist paths.length))

/-- Moves the directory for metadata to the name of the fork, by way of a scratch directory; ends
with that name. -/
def renameDistInfo (c : Config) (archiver : Archiver) (path : String) (s : Scan) : Act String :=
  Act.withScratch fun scratch => do
    archiver.extractEntries path s.entries scratch
    archiver.deleteEntries path s.entries
    let extracted ← Act.ofExcept (findDistInfo (← Act.disk) scratch c.distName path)
    let newName := c.renamed ((Path.fileName? extracted).getD "")
    Act.change (·.rename extracted (Path.join scratch newName))
    archiver.addTree path scratch newName
    return newName

/-- Makes a wheel one of the fork, in its place. -/
def patch (c : Config) (archiver : Archiver) (path : String) : Act Unit := do
  let s ← scan path
  let sources ← c.readSources
  let metadata := Metadata.forFork s.metadata c
  let replaced := sources.map (fun (tracked, content) => (tracked, content.image)) ++
    [(s.metadataPath, utf8 metadata)]
  let record := Record.forFork s.record replaced c
  archiver.replaceEntry path s.metadataPath (.ofText metadata)
  archiver.replaceEntry path s.recordPath (.ofText record)
  sources.forM fun (tracked, content) => archiver.replaceEntry path tracked content
  let dir ← renameDistInfo c archiver path s
  verify path (sources.map (·.1) ++ [inDir dir "METADATA"])

end Rebadge.Wheel
