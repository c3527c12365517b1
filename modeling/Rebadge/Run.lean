import Rebadge.Http
import Rebadge.Patch
import Rebadge.Release.Index

/-!
# A run over a release

A run finds the artifacts of a release, downloads them, patches each and moves it to its name in the
fork. The first download that fails ends the run before anything is patched. Once all are
downloaded, every artifact is patched, and the run fails with the first failure in the order of the
listing. In which order downloads and patches happen is left open.
-/

namespace Rebadge

/-- An order of numbered tasks: for each number of tasks, each task once. -/
structure Schedule where
  order : Nat → List Nat
  perm : ∀ n, (order n).Perm (List.range n)

/-- The tasks in the order of their numbers. -/
def Schedule.inOrder : Schedule where
  order := List.range
  perm _ := .refl _

/-- The items of a list in the order of a schedule, with their positions. -/
def Schedule.arrange {α : Type} (s : Schedule) (items : List α) : List (α × Nat) :=
  (s.order items.length).filterMap fun i => items[i]?.map fun a => (a, i)

namespace Run

/-- What a run depends on besides the workspace. -/
structure Setting where
  config : Config
  archiver : Archiver
  network : Network
  downloads : Schedule := .inOrder
  patches : Schedule := .inOrder

/-- The page of the package below a base. -/
def listingUrl (c : Config) (base : String) : Except Failure Url :=
  (Url.parse (Text.trimEnd base '/' ++ "/" ++ c.package ++ "/")).mapError .url

/-- The artifacts of a release. -/
def resolve (s : Setting) : Channel → Act (List Artifact)
  | .release version => do
    let url ← Act.ofExcept (listingUrl s.config s.config.indexUrl)
    let r ← Http.get s.network url
    let files ← Act.ofExcept (Index.parse (Http.bodyText r))
    return Release.select files s.config.package version
  | .nightly => do
    let url ← Act.ofExcept (listingUrl s.config s.config.nightlyUrl)
    let r ← Http.get s.network url
    Act.ofExcept ((Release.ofPage (Http.bodyText r) url).mapError .url)

/-- Downloads an artifact; ends with its path. -/
def download (s : Setting) (a : Artifact) : Act String := do
  let path ← Act.ofExcept (Release.distPath s.config.distDir a.filename)
  let r ← Http.getText s.network a.url
  Act.change (·.write path r.body)
  return path

/-- The results of tasks in the order of their numbers. -/
def inOrder {α : Type} (n : Nat) (results : List (α × Nat)) : List α :=
  (List.range n).filterMap fun i => (results.find? (·.2 == i)).map (·.1)

/-- Downloads all artifacts; ends with their paths. -/
def downloadAll (s : Setting) (artifacts : List Artifact) : Act (List (Artifact × String)) := do
  let paths ← (s.downloads.arrange artifacts).mapM fun (a, i) => return ((a, ← download s a), i)
  return inOrder artifacts.length paths

/-- Patches all artifacts, also after one failed; ends with all outcomes. -/
def patchAll (s : Setting) (artifacts : List (Artifact × String)) :
    Act (List (Except Failure Patched)) := do
  let outcomes ← (s.patches.arrange artifacts).mapM fun ((a, path), i) =>
    return (← Act.attempt (Artifact.patch s.config s.archiver a.filename path s.config.distDir), i)
  return inOrder artifacts.length outcomes

/-- Finds, downloads, patches and moves the artifacts of a release. -/
def run (s : Setting) (channel : Channel) : Act (List Patched) := do
  Act.makeDirs s.config.distDir
  let artifacts ← resolve s channel
  let downloaded ← downloadAll s artifacts
  let outcomes ← patchAll s downloaded
  outcomes.mapM Act.ofExcept

end Run
end Rebadge
