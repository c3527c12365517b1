import Rebadge.Digest
import Rebadge.Name
import Rebadge.Path

/-!
# Configuration of a fork

The names, the one renamed dependency, the files that are replaced and the places they come from and
go to. The defaults describe a published fork, so that a run without a configuration file reproduces
it.
-/

namespace Rebadge

/-- The dependency that the fork renames. -/
structure Dependency where
  /-- The line of the core metadata that is replaced. -/
  metadataFrom : String := "Requires-Dist: pminit (>=0.4.0)"
  /-- The line that replaces it. -/
  metadataTo : String := "Requires-Dist: pythonmonkey-node-modules (~=0.1)"
  /-- The key of the dependency in the project file. -/
  projectKey : String := "pminit"
  /-- The line that replaces the line of that key. -/
  projectLine : String := "pythonmonkey_node_modules = \"~0.1\""
deriving DecidableEq, Repr

/-- What the fork changes. -/
structure Config where
  /-- The name under which the artifacts are published. -/
  package : String := "pythonmonkey"
  /-- The name of the fork. -/
  forkPackage : String := "pythonmonkey-fork"
  dependency : Dependency := {}
  /-- The files of an artifact that are replaced by local ones. -/
  trackedFiles : List String := ["pythonmonkey/require.py", "pythonmonkey/__init__.py"]
  /-- The directory that holds the local files. -/
  sourceRoot : String := "python"
  /-- The directory of a source tree that holds the files. -/
  sdistSourceDir : String := "python"
  /-- The base of the package index. -/
  indexUrl : String := "https://pypi.org/simple"
  /-- The base of the nightly listing. -/
  nightlyUrl : String := "https://nightly.pythonmonkey.io"
  /-- The directory that receives the artifacts. -/
  distDir : String := "dist"
  digestEncoding : DigestEncoding := .standard
deriving DecidableEq, Repr

namespace Config

/-- The package name inside artifact names. -/
def distName (c : Config) : String := Name.normalize c.package

/-- The name of the fork inside artifact names. -/
def forkDistName (c : Config) : String := Name.normalize c.forkPackage

/-- The artifact name under the fork. -/
def renamed (c : Config) (name : String) : String :=
  Name.toFork name c.distName c.forkDistName

/-- The local file that replaces a tracked file. -/
def trackedSource (c : Config) (tracked : String) : String :=
  Path.join c.sourceRoot tracked

/-- Why a configuration is refused. -/
inductive Fault where
  | emptyName
  | absoluteSourceDir
  | nothingTracked
deriving DecidableEq, Repr

/-- The wording of the fault. -/
def Fault.message : Fault → String
  | .emptyName => "package and fork_package must not be empty"
  | .absoluteSourceDir => "sdist_source_dir must be relative"
  | .nothingTracked => "at least one tracked file is required"

/-- The first fault of a configuration. -/
def fault? (c : Config) : Option Fault :=
  if c.package = "" ∨ c.forkPackage = "" then some .emptyName
  else if Path.isAbsolute c.sdistSourceDir then some .absoluteSourceDir
  else if c.trackedFiles = [] then some .nothingTracked
  else none

end Config
end Rebadge
