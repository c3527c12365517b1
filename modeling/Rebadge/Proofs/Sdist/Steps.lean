import Rebadge.Proofs.Act
import Rebadge.Proofs.Path
import Rebadge.Sdist

/-!
# The steps of patching a source tarball

A tarball is prepared in the scratch directory: it is unpacked, the directory at its top is edited
and gets its new name (`prepare`). Only then it is packed (`patch_steps`, `patch_some`).
-/

namespace Rebadge

/-- The paths of a configuration stay below the directories that they belong to. -/
structure Config.IsTame (c : Config) : Prop where
  fork : '/' ∉ c.forkDistName.toList
  sourceDir : Path.isAbsolute c.sdistSourceDir = false ∧ ".." ∉ Text.split c.sdistSourceDir '/'
  tracked : ∀ t ∈ c.trackedFiles, Path.isAbsolute t = false ∧ ".." ∉ Text.split t '/' ∧
    ∃ p ∈ Text.split t '/', p ≠ "" ∧ p ≠ "."

instance (c : Config) : Decidable c.IsTame :=
  decidable_of_iff ('/' ∉ c.forkDistName.toList ∧
    (Path.isAbsolute c.sdistSourceDir = false ∧ ".." ∉ Text.split c.sdistSourceDir '/') ∧
    ∀ t ∈ c.trackedFiles, Path.isAbsolute t = false ∧ ".." ∉ Text.split t '/' ∧
      ∃ p ∈ Text.split t '/', p ≠ "" ∧ p ≠ ".")
    ⟨fun h => ⟨h.1, h.2.1, h.2.2⟩, fun h => ⟨h.fork, h.sourceDir, h.tracked⟩⟩

namespace Sdist

open Archiver (native)

variable {c : Config} {path rootName : String}

/-- Fails unless the directory at the top is there. -/
def checkRoot (sdist rootName root : String) : Act Unit := do
  if !(← Act.disk).isDir root then throw (.malformed sdist (.missingRoot rootName))

/-- Changes the files of the directory at the top and puts the tracked files in. -/
def editRoot (c : Config) (sdist rootName root : String) : Act Unit := do
  checkRoot sdist rootName root
  changeRootFile sdist root "pyproject.toml" (ProjectFile.forFork · c)
  changeRootFile sdist root "PKG-INFO" (Metadata.forFork · c)
  let sources ← c.readSources
  sources.forM fun p => inject c root p.1 p.2

/-- Gives the directory at the top its new name. -/
def moveRoot (c : Config) (scratch rootName : String) : Act Unit :=
  Act.change (·.rename (Path.join scratch rootName) (Path.join scratch (c.renamed rootName)))

/-- What is done in the scratch directory before the tarball is packed. -/
def prepare (c : Config) (sdist scratch rootName : String) : Act Unit := do
  Archiver.Native.extractTarball sdist scratch
  editRoot c sdist rootName (Path.join scratch rootName)
  moveRoot c scratch rootName

theorem patch_none (c : Config) (archiver : Archiver) (h : rootName? path = none) :
    patch c archiver path = throw (.malformed path .notATarball) := by
  unfold patch
  rw [h]

/-- **The steps**: the tarball is unpacked, edited, moved and packed. -/
theorem patch_steps (c : Config) (archiver : Archiver) (h : rootName? path = some rootName) :
    patch c archiver path = Act.withScratch fun scratch => (do
      archiver.extractTarball path scratch
      editRoot c path rootName (Path.join scratch rootName)
      moveRoot c scratch rootName
      archiver.createTarball path scratch (c.renamed rootName)) := by
  unfold patch editRoot checkRoot moveRoot
  rw [h]
  refine congrArg Act.withScratch (funext fun scratch => ?_)
  simp only [bind_assoc]
  refine bind_congr fun _ => bind_congr fun d => ?_
  split
  · rfl
  · rfl

theorem patch_some (c : Config) (h : rootName? path = some rootName) :
    patch c native path = Act.withScratch fun scratch =>
      prepare c path scratch rootName >>= fun _ =>
      Archiver.Native.createTarball path scratch (c.renamed rootName) := by
  rw [patch_steps c native h]
  unfold prepare
  simp only [bind_assoc]
  rfl

/-- The name of the tarball is that of the directory at its top with the suffix. -/
theorem exists_fileName (h : rootName? path = some rootName) :
    ∃ name, Path.fileName? path = some name ∧ name.toList = rootName.toList ++ suffix.toList := by
  unfold rootName? Text.stripSuffix? Chars.stripSuffix? at h
  rw [Option.map_map, Option.map_eq_some_iff] at h
  obtain ⟨front, hfront, rfl⟩ := h
  rw [List.isPrefixOf?_eq_some_iff_append_eq] at hfront
  have hname : ((Path.fileName? path).getD "").toList = front.reverse ++ suffix.toList := by
    rw [← List.reverse_reverse ((Path.fileName? path).getD "").toList,
      ← hfront, List.reverse_append, List.reverse_reverse]
  cases hfile : Path.fileName? path with
  | none =>
    rw [hfile] at hname
    exact absurd (congrArg List.length hname) (by simp [suffix])
  | some name =>
    rw [hfile] at hname
    exact ⟨name, rfl, by rw [Function.comp_apply, String.toList_ofList]; exact hname⟩

theorem slash_rootName (h : rootName? path = some rootName) : '/' ∉ rootName.toList := by
  obtain ⟨name, hfile, hname⟩ := exists_fileName h
  intro hmem
  refine (Path.isPlain_of_fileName? hfile).slash ?_
  rw [hname]
  exact List.mem_append_left _ hmem

end Sdist
end Rebadge
