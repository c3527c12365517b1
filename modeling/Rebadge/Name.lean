import Rebadge.Text.Basic
import Rebadge.Version.Local

/-!
# Names of artifacts

A package name appears in directory and file names of its artifacts in a normal form: each run of
`-`, `_` and `.` is one `_`. An artifact name is renamed to the fork by replacing a leading
`<package>-` and cutting local versions.
-/

namespace Rebadge.Name

/-- The characters that separate the words of a package name. -/
def isSeparator (c : Char) : Bool :=
  c == '-' || c == '_' || c == '.'

/-- One `_` for each run of separators; `inRun` says that the character before was a separator. -/
def joinRuns (inRun : Bool) : List Char → List Char
  | [] => []
  | c :: s =>
    if isSeparator c then (if inRun then joinRuns true s else '_' :: joinRuns true s)
    else c :: joinRuns false s

/-- The form of a package name inside artifact names. -/
def normalize (name : String) : String :=
  .ofList (joinRuns false name.toList)

/-- The name with a leading `<package>-` replaced by `<fork>-` and without local versions. -/
def toFork (name package fork : String) : String :=
  Version.stripLocalVersion <|
    match Text.stripPrefix? (package ++ "-") name with
    | some rest => fork ++ "-" ++ rest
    | none => name

end Rebadge.Name
