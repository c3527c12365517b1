import Rebadge.Proofs.Path.Resolving
import Rebadge.Proofs.Sdist.Bench

/-!
# Where tracked files are put

A tracked file is put below the directory at the top, at the configured directory and its own path.
A configuration is only accepted with a relative directory there (`Config.parse_eq_ok_iff`), but
nothing is asked of the paths of the tracked files, nor of `..` in either. So a place is below the
directory at the top, whatever that is called, exactly if the path of the tracked file is relative
as well and the two together go up less than down and at no point above their start
(`injectionTarget_below_iff`). Other accepted configurations put files elsewhere on the disk
(`accepted_outside`).
-/

namespace Rebadge

open Rebadge.Path (IsBelow Descends resolve)

namespace Config

variable {c : Config} {t : String}

/-! ## Accepted configurations -/

theorem fault?_eq_none_iff : c.fault? = none ↔
    c.package ≠ "" ∧ c.forkPackage ≠ "" ∧ Path.isAbsolute c.sdistSourceDir = false ∧
    c.trackedFiles ≠ [] := by
  unfold fault?
  split
  · next hempty => exact iff_of_false (by simp) fun h => hempty.elim h.1 h.2.1
  next hempty =>
  split
  · next habs => exact iff_of_false (by simp) fun h => absurd habs (by simp [h.2.2.1])
  next habs =>
  split
  · next htracked => exact iff_of_false (by simp) fun h => h.2.2.2 htracked
  · next htracked =>
    rw [not_or] at hempty
    exact iff_of_true rfl ⟨hempty.1, hempty.2, Bool.not_eq_true _ ▸ habs, htracked⟩

/-- A text is accepted if it describes a configuration of which that holds. -/
theorem parse_eq_ok_iff {text : String} :
    parse text = .ok c ↔ (Toml.parse? text).bind ofTable? = some c ∧ c.fault? = none := by
  unfold parse
  cases (Toml.parse? text).bind ofTable? with
  | none => simp
  | some d =>
    dsimp only
    rw [Option.some.injEq]
    cases hfault : d.fault? with
    | some f =>
      refine iff_of_false (by simp) ?_
      rintro ⟨rfl, hnone⟩
      exact absurd (hfault.symm.trans hnone) (by simp)
    | none =>
      rw [Except.ok.injEq]
      exact ⟨fun heq => ⟨heq, heq ▸ hfault⟩, And.left⟩

/-! ## The way from the directory at the top -/

/-- The pieces of the path from the directory at the top to a tracked file. -/
def targetPieces (c : Config) (t : String) : List String :=
  Text.split c.sdistSourceDir '/' ++ Text.split t '/'

/-- The path of the tracked file is relative, and the way to it leads below the directory at the
top. -/
structure LeadsBelow (c : Config) (t : String) : Prop where
  relative : Path.isAbsolute t = false
  descends : Descends (c.targetPieces t)

instance (c : Config) (t : String) : Decidable (c.LeadsBelow t) :=
  decidable_of_iff (Path.isAbsolute t = false ∧ Descends (c.targetPieces t))
    ⟨fun h => ⟨h.1, h.2⟩, fun h => ⟨h.relative, h.descends⟩⟩

theorem IsTame.leadsBelow (h : c.IsTame) (ht : t ∈ c.trackedFiles) : c.LeadsBelow t := by
  obtain ⟨hrelative, hparent, piece, hpiece, hidle⟩ := h.tracked t ht
  refine ⟨hrelative, Path.descends_of_not_mem ?_ ⟨piece, List.mem_append_right _ hpiece, ?_⟩⟩
  · rw [targetPieces, List.mem_append, not_or]
    exact ⟨h.sourceDir.2, hparent⟩
  · refine Path.isName_iff.2 ⟨not_or.2 hidle, ?_⟩
    rintro rfl
    exact hparent hpiece

end Config

namespace Sdist

open Archiver (native)

variable {c : Config} {root name t : String}

theorem lead_injectionTarget (hdir : Path.isAbsolute c.sdistSourceDir = false)
    (ht : Path.isAbsolute t = false) :
    Path.lead [] (injectionTarget c root t) = Path.leadAlong (Path.lead [] root)
    (c.targetPieces t) := by
  unfold injectionTarget Config.targetPieces
  rw [Path.lead_join [] _ ht, Path.lead_join [] root hdir, Path.leadAlong_append]

theorem injectionTarget_absolute (ht : Path.isAbsolute t = true) : injectionTarget c root t = t :=
  Path.join_absolute _ ht

theorem isBelow_injectionTarget (hdir : Path.isAbsolute c.sdistSourceDir = false)
    (h : c.LeadsBelow t) (root : String) : IsBelow root (injectionTarget c root t) :=
  Path.isBelow_of_descends h.descends (lead_injectionTarget hdir h.relative)

theorem leadsBelow_of_isBelow (hdir : Path.isAbsolute c.sdistSourceDir = false)
    (hlast : (resolve root).getLast? = some (.normal name)) (hname : name ∉ c.targetPieces t)
    (h : IsBelow root (injectionTarget c root t)) : c.LeadsBelow t := by
  cases habs : Path.isAbsolute t with
  | true =>
    rw [injectionTarget_absolute habs] at h
    exact absurd h (Path.not_isBelow_of_absolute habs hlast fun hmem =>
      hname (List.mem_append_right _ hmem))
  | false => exact ⟨habs, Path.descends_of_isBelow h (lead_injectionTarget hdir habs) hlast hname⟩

/-- **Places below the directory at the top.** Of an accepted configuration a tracked file is put
below every directory exactly if its path is relative and the way to it leads below; and a directory
whose last name is not on that way is none below which a file with any other path is put. -/
theorem injectionTarget_below_iff {text : String} (h : Config.parse text = .ok c) :
    ∀ t ∈ c.trackedFiles,
      ((∀ root, IsBelow root (injectionTarget c root t)) ↔ c.LeadsBelow t) ∧
      ∀ root name, (resolve root).getLast? = some (.normal name) → name ∉ c.targetPieces t →
        (IsBelow root (injectionTarget c root t) ↔ c.LeadsBelow t) := by
  intro t _
  obtain ⟨-, -, hdir, -⟩ := Config.fault?_eq_none_iff.1 (Config.parse_eq_ok_iff.1 h).2
  refine ⟨⟨fun hall => ?_, isBelow_injectionTarget hdir⟩, fun root name hlast hname =>
    ⟨leadsBelow_of_isBelow hdir hlast hname,
      fun hbelow => isBelow_injectionTarget hdir hbelow root⟩⟩
  obtain ⟨name, hplain, hname⟩ := Path.exists_isPlain_not_mem (c.targetPieces t)
  exact leadsBelow_of_isBelow hdir (by rw [Path.resolve_plain hplain]; rfl) hname (hall name)

/-- A text with a path that goes up and comes back, and one that does not come back. -/
def windingText : String := "tracked_files = [\"a/../b\", \"../../x\"]\n"

/-- The configuration of that text. -/
def windingConfig : Config := { trackedFiles := ["a/../b", "../../x"] }

theorem injectionTarget_below_winding : Config.parse windingText = .ok windingConfig ∧
    windingConfig.trackedFiles = ["a/../b", "../../x"] ∧
    (∀ root, IsBelow root (injectionTarget windingConfig root "a/../b")) ∧
    (resolve "/tmp/s/p-1").getLast? = some (.normal "p-1") ∧
    "p-1" ∉ windingConfig.targetPieces "../../x" ∧
    ¬ IsBelow "/tmp/s/p-1" (injectionTarget windingConfig "/tmp/s/p-1" "../../x") := by
  have hparse : Config.parse windingText = .ok windingConfig := by decide +kernel
  have hlast : (resolve "/tmp/s/p-1").getLast? = some (.normal "p-1") := by decide +kernel
  have hname : "p-1" ∉ windingConfig.targetPieces "../../x" := by decide +kernel
  obtain ⟨hback, -⟩ := injectionTarget_below_iff hparse "a/../b" (by decide)
  obtain ⟨-, hup⟩ := injectionTarget_below_iff hparse "../../x" (by decide)
  refine ⟨hparse, rfl, hback.2 (by decide +kernel), hlast, hname, fun hbelow => ?_⟩
  exact absurd ((hup "/tmp/s/p-1" "p-1" hlast hname).1 hbelow) (by decide +kernel)

/-! ## Accepted places elsewhere -/

/-- A text with a directory that is not below the one at the top. -/
def outsideText : String :=
  "package = \"p\"\nfork_package = \"f\"\ntracked_files = [\"a\"]\n" ++
    "source_root = \"src\"\nsdist_source_dir = \"../../../src/out\"\n"

/-- The configuration of that text. -/
def outsideConfig : Config := { smallConfig with sdistSourceDir := "../../../src/out" }

/-- **Files elsewhere.** The text is accepted, and a patch that succeeds makes a file outside the
directory at the top. -/
theorem accepted_outside : Config.parse outsideText = .ok outsideConfig ∧
    "a" ∈ outsideConfig.trackedFiles ∧
    ¬ IsBelow "/tmp/scratch0/p-1" (injectionTarget outsideConfig "/tmp/scratch0/p-1" "a") ∧
    (holding "p-1.tar.gz" smallMembers).disk.tree.get? ["src", "out"] = none ∧
    ∃ w, patch outsideConfig native "p-1.tar.gz" (holding "p-1.tar.gz" smallMembers) = .ok () w ∧
      (w.disk.readText "/src/out/a").toOption = some "a" := by
  have hmade : (match patch outsideConfig native "p-1.tar.gz"
      (holding "p-1.tar.gz" smallMembers) with
      | .ok _ w => (w.disk.readText "/src/out/a").toOption == some "a"
      | .error _ _ => false) = true := by decide +kernel
  refine ⟨by decide +kernel, by decide, by decide +kernel, by decide +kernel, ?_⟩
  split at hmade
  · next w hpatch => exact ⟨w, hpatch, beq_iff_eq.1 hmade⟩
  · exact absurd hmade (by simp)

end Sdist
end Rebadge
