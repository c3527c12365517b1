import Rebadge.Archiver
import Rebadge.Config.Load
import Rebadge.Metadata
import Rebadge.ProjectFile

/-!
# Patching a source tarball

A source tarball has one directory at its top, named like the tarball. The tarball is unpacked, a
few files of the directory are changed or put in, and the directory is packed again under the name
of the fork.
-/

namespace Rebadge.Sdist

/-- What the names of source tarballs end with. -/
def suffix : String := ".tar.gz"

/-- The name of the directory at the top of a tarball. -/
def rootName? (path : String) : Option String :=
  Text.stripSuffix? suffix ((Path.fileName? path).getD "")

/-- The text of a file that the directory at the top must have. -/
def readRootFile (sdist root name : String) : Act String := do
  match (← Act.disk).readText (Path.join root name) with
  | .ok text => return text
  | .error (.os .notFound) => throw (.malformed sdist (.missing name))
  | .error e => throw (.io e)

/-- Changes the text of such a file. -/
def changeRootFile (sdist root name : String) (change : String → String) : Act Unit := do
  let text ← readRootFile sdist root name
  Act.change (·.write (Path.join root name) (.ofText (change text)))

/-- Where a tracked file is put. -/
def injectionTarget (c : Config) (root tracked : String) : String :=
  Path.join (Path.join root c.sdistSourceDir) tracked

/-- Puts a tracked file in its place. -/
def inject (c : Config) (root tracked : String) (content : Content) : Act Unit := do
  let target := injectionTarget c root tracked
  Act.makeParents target
  Act.change (·.write target content)

/-- Makes a source tarball one of the fork, in its place. -/
def patch (c : Config) (archiver : Archiver) (path : String) : Act Unit := do
  match rootName? path with
  | none => throw (.malformed path .notATarball)
  | some rootName =>
    Act.withScratch fun scratch => do
      archiver.extractTarball path scratch
      let root := Path.join scratch rootName
      if !(← Act.disk).isDir root then throw (.malformed path (.missingRoot rootName))
      changeRootFile path root "pyproject.toml" (ProjectFile.forFork · c)
      changeRootFile path root "PKG-INFO" (Metadata.forFork · c)
      (← c.readSources).forM fun (tracked, content) => inject c root tracked content
      let newName := c.renamed rootName
      Act.change (·.rename root (Path.join scratch newName))
      archiver.createTarball path scratch newName

end Rebadge.Sdist
