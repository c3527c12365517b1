import Rebadge.Config

/-!
# The project file of a source tree

In pyproject.toml the declaration of the name and the line of the renamed dependency change. The
result ends with one line feed.
-/

namespace Rebadge.ProjectFile

/-- The declaration of a name. -/
def nameDeclaration (name : String) : String := "name = \"" ++ name ++ "\""

/-- The line, or the dependency's replacement if the line declares the dependency. -/
def forkLine (d : Dependency) (line : String) : String :=
  if Text.hasPrefix line (d.projectKey ++ " = ") then d.projectLine else line

/-- The project file of the fork. -/
def forFork (text : String) (c : Config) : String :=
  let named := Text.replaceAll text (nameDeclaration c.package) (nameDeclaration c.forkPackage)
  "\n".intercalate ((Text.lines named).map (forkLine c.dependency)) ++ "\n"

end Rebadge.ProjectFile
