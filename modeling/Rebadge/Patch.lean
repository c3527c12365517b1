import Rebadge.Release
import Rebadge.Sdist
import Rebadge.Wheel.Patch

/-!
# Patching an artifact

An artifact is patched according to its kind and then moved to the name of the fork. Artifacts of
other kinds are only moved.
-/

namespace Rebadge

/-- An artifact of the fork. -/
structure Patched where
  kind : ArtifactKind
  /-- The name under which the artifact was published. -/
  published : String
  /-- Where it is now. -/
  path : String
deriving DecidableEq, Repr

namespace Artifact

/-- Patches the file of an artifact according to its kind. -/
def patchContent (c : Config) (archiver : Archiver) (kind : ArtifactKind)
    (path : String) : Act Unit :=
  match kind with
  | .wheel => Wheel.patch c archiver path
  | .sdist => Sdist.patch c archiver path
  | .other => pure ()

/-- Where the artifact of a name ends up. -/
def forkPath (c : Config) (dist filename : String) : String :=
  Path.join dist (c.renamed filename)

/-- Patches an artifact and moves it to its name in the fork. -/
def patch (c : Config) (archiver : Archiver) (filename path dist : String) : Act Patched := do
  let kind := ArtifactKind.ofFilename filename
  patchContent c archiver kind path
  Act.change (·.rename path (forkPath c dist filename))
  return ⟨kind, filename, forkPath c dist filename⟩

end Artifact
end Rebadge
