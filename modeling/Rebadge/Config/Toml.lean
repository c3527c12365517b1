import Rebadge.Config
import Rebadge.Toml.Document

/-!
# Configurations written in TOML

Keys that are missing keep their defaults, and unknown keys are ignored. A key with a value of the
wrong kind is an error.
-/

namespace Rebadge.Config

open Toml (Value Table)

/-- Why a text is no configuration. -/
inductive ParseError where
  /-- The text is no TOML document, or a value is of the wrong kind. -/
  | toml
  /-- The configuration is refused. -/
  | fault (f : Fault)
deriving DecidableEq, Repr

/-- The wording of the error. -/
def ParseError.message : ParseError → String
  | .toml => "TOML parse error"
  | .fault f => f.message

def string? : Value → Option String
  | .string s => some s
  | _ => none

def strings? : Value → Option (List String)
  | .array items => items.mapM string?
  | _ => none

/-- The value of a key read by `read`, or the default if the key is missing. -/
def field (t : Table) (key : String) (read : Value → Option α) (default : α) : Option α :=
  match t.get? key with
  | none => some default
  | some v => read v

/-- The items of an array read in order; those that are missing keep their defaults, and further
items are ignored. -/
def positional : List Value → List String → Option (List String)
  | _, [] => some []
  | [], defaults => some defaults
  | v :: vs, _ :: defaults => do return (← string? v) :: (← positional vs defaults)

def dependencyOfTable? (t : Table) : Option Dependency := do
  let d : Dependency := {}
  return {
    metadataFrom := ← field t "metadata_from" string? d.metadataFrom
    metadataTo := ← field t "metadata_to" string? d.metadataTo
    projectKey := ← field t "pyproject_key" string? d.projectKey
    projectLine := ← field t "pyproject_line" string? d.projectLine }

/-- A dependency is a table of its parts, or an array of them in order. -/
def dependency? : Value → Option Dependency
  | .table t | .inlineTable t => dependencyOfTable? t
  | .array items => do
    let d : Dependency := {}
    match ← positional items [d.metadataFrom, d.metadataTo, d.projectKey, d.projectLine] with
    | [a, b, c, e] => some ⟨a, b, c, e⟩
    | _ => none
  | _ => none

def encodingOfName? (name : String) : Option DigestEncoding :=
  if name = "standard" then some .standard
  else if name = "url-safe-no-pad" then some .urlSafeNoPad
  else none

/-- A table or an array with nothing in it. -/
def isEmptyCollection : Value → Bool
  | .table t | .inlineTable t => t.entries.isEmpty
  | .array items => items.isEmpty
  | .tables ts => ts.isEmpty
  | _ => false

/-- An encoding is its name, or a table with the name as its only key and nothing in the value. -/
def encoding? : Value → Option DigestEncoding
  | .string s => encodingOfName? s
  | .table t | .inlineTable t =>
    match t.entries with
    | [(name, v)] => if isEmptyCollection v then encodingOfName? name else none
    | _ => none
  | _ => none

/-- The configuration of a document. -/
def ofTable? (t : Table) : Option Config := do
  let c : Config := {}
  return {
    package := ← field t "package" string? c.package
    forkPackage := ← field t "fork_package" string? c.forkPackage
    dependency := ← field t "dependency" dependency? c.dependency
    trackedFiles := ← field t "tracked_files" strings? c.trackedFiles
    sourceRoot := ← field t "source_root" string? c.sourceRoot
    sdistSourceDir := ← field t "sdist_source_dir" string? c.sdistSourceDir
    indexUrl := ← field t "index_url" string? c.indexUrl
    nightlyUrl := ← field t "nightly_url" string? c.nightlyUrl
    distDir := ← field t "dist_dir" string? c.distDir
    digestEncoding := ← field t "digest_encoding" encoding? c.digestEncoding }

/-- The configuration that a text describes. -/
def parse (text : String) : Except ParseError Config :=
  match (Toml.parse? text).bind ofTable? with
  | none => .error .toml
  | some c =>
    match c.fault? with
    | some f => .error (.fault f)
    | none => .ok c

end Rebadge.Config
