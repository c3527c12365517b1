import Rebadge.Proofs.Sdist.Bench

/-!
# Patches that stay in their place

A patch of a tarball without links changes nothing but the tarball, whether it fails or not
(`patch_confined`). Links lead elsewhere: where the directory at the top is one, the directory
behind it is edited (`linked_escapes`).
-/

namespace Rebadge.Sdist

open Act (leaves)
open Archiver (native)

variable {c : Config} {w w' : Workspace} {path : String} {la : Location}

/-- **Nothing else changes.** Whatever a patch of a tarball without links comes to, the rest of the
disk is as it was. -/
theorem patch_confined (hwf : w.disk.tree.WellFormed) (hcwd : Tree.IsPlace w.disk.cwd)
    (hlocate : w.disk.locate path true = .ok la)
    (hfile : ∃ content m, w.disk.tree.get? la = some (.file content m))
    (hlinks : Site.HasNoLinks w.disk la) (hc : c.IsTame) (hroot : rootName? path ≠ some "..") :
    Disk.Aside [la] w.disk (leaves (patch c native path) w).disk := by
  cases hname : rootName? path with
  | none =>
    rw [patch_none c native hname]
    exact .refl _ _
  | some rootName =>
    rw [patch_some c hname]
    rcases bench_or_error hwf hcwd hlocate hfile with ⟨l, h⟩ | ⟨e, hmake⟩
    · have hne : rootName ≠ ".." := by
        rintro rfl
        exact hroot hname
      exact h.aside_withScratch
        (h.working_leaves hc hlinks (slash_rootName hname) hne (c.renamed rootName))
    · rw [Act.leaves_of_error (Act.withScratch_of_error _ hmake)]
      exact .refl _ _

/-- The tarball may change, and nothing else does. -/
theorem patch_confined_small : Disk.Aside [["p-1.tar.gz"]] (holding "p-1.tar.gz" smallMembers).disk
    (leaves (patch smallConfig native "p-1.tar.gz") (holding "p-1.tar.gz" smallMembers)).disk := by
  refine patch_confined (Tree.wellFormed_of_parents (by decide +kernel))
    (by simp [Tree.IsPlace, holding]) (by decide +kernel) ⟨_, _, rfl⟩ (holding_noLinks rfl ?_)
    (by decide +kernel) (by decide +kernel)
  simp [smallMembers]

/-! ## A link at the top -/

/-- The sources are where the link leads. -/
def linkedConfig : Config :=
  { package := "p", forkPackage := "f", trackedFiles := ["a"], sourceRoot := "/src",
    sdistSourceDir := "x" }

/-- A disk with a tarball whose directory at the top is a link to another directory. -/
def linkedWorkspace : Workspace where
  disk :=
    { tree :=
      ⟨[(["tmp"], .dir 0o755), (["r.tar.gz"], .file (.tar [⟨"r", .link "/src", 0o777⟩]) 0o644),
        (["src"], .dir 0o755), (["src", "a"], .file (.ofText "a") 0o644),
    (["src", "pyproject.toml"], .file (.ofText "name = \"p\"\n") 0o644),
    (["src", "PKG-INFO"], .file (.ofText "Name: p\n") 0o644)]⟩ }

/-- **An escape.** A file elsewhere is rewritten and another one is made. -/
theorem linked_escapes : linkedConfig.IsTame ∧ rootName? "r.tar.gz" = some "r" ∧
    (linkedWorkspace.disk.readText "/src/PKG-INFO").toOption = some "Name: p\n" ∧
    ((leaves (patch linkedConfig native "r.tar.gz") linkedWorkspace).disk.readText
      "/src/PKG-INFO").toOption = some "Name: f\n" ∧
    linkedWorkspace.disk.tree.get? ["src", "x", "a"] = none ∧
    ((leaves (patch linkedConfig native "r.tar.gz") linkedWorkspace).disk.readText
      "/src/x/a").toOption = some "a" := by
  decide +kernel

end Rebadge.Sdist
