import Rebadge.Config.Toml
import Rebadge.Workspace

/-!
# Configurations and sources on disk
-/

namespace Rebadge.Config

/-- The configuration in a file. -/
def load (path : String) : Act Config := do
  let text ← Act.ofExcept
    (((← Act.disk).readText path).mapError fun e => .config (.unreadable path e))
  Act.ofExcept ((parse text).mapError fun e => .config (.content e))

/-- The local file that replaces a tracked file, with the path of the tracked file. -/
def readSource (c : Config) (tracked : String) : Act (String × Content) := do
  let source := c.trackedSource tracked
  let content ← Act.ofExcept
    (((← Act.disk).read source).mapError fun e => .config (.trackedFile source e))
  return (tracked, content)

/-- The local files that replace the tracked files, in the configured order. -/
def readSources (c : Config) : Act (List (String × Content)) :=
  c.trackedFiles.mapM c.readSource

end Rebadge.Config
