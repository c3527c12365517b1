import Rebadge.Config
import Rebadge.Proofs.Path
import Rebadge.Proofs.Version.Decomposition
import Rebadge.Release

/-!
# Names under the fork

An artifact name that is a single component of a path has its place in a directory, and no other
name has one (`distPath_ok`). It is such a name under the fork too (`isPlain_renamed`), since the
name of the fork has no slash and cutting local versions never leaves dots alone.
-/

namespace Rebadge

namespace Name

theorem separator_not_mem_joinRuns {sep : Char} (hsep : isSeparator sep = true)
    (hne : sep ≠ '_') (s : List Char) (inRun : Bool) : sep ∉ joinRuns inRun s := by
  induction s generalizing inRun with
  | nil => simp [joinRuns]
  | cons c s ih =>
    rw [joinRuns]
    split
    · split
      · exact ih true
      · rw [List.mem_cons, not_or]
        exact ⟨hne, ih true⟩
    · next hc =>
      rw [List.mem_cons, not_or]
      refine ⟨?_, ih false⟩
      rintro rfl
      exact hc hsep

theorem separator_not_mem_normalize {sep : Char} (hsep : isSeparator sep = true)
    (hne : sep ≠ '_') (name : String) : sep ∉ (normalize name).toList := by
  unfold normalize
  rw [String.toList_ofList]
  exact separator_not_mem_joinRuns hsep hne _ _

theorem joinRuns_eq_self {s : List Char} (h : ∀ c ∈ s, isSeparator c = false) :
    joinRuns false s = s := by
  induction s with
  | nil => rfl
  | cons c s ih =>
    obtain ⟨hc, hs⟩ := List.forall_mem_cons.1 h
    rw [joinRuns, hc, ih hs]
    rfl

/-- Behind the package name local versions are cut as if the text started there. -/
theorem toFork_project {package fork : String} (hfork : '.' ∉ fork.toList) (rest : String) :
    toFork (package ++ "-" ++ rest) package fork = fork ++ "-" ++
    Version.stripLocalVersion rest := by
  have hself : Version.stripLocalVersion fork = fork := by
    unfold Version.stripLocalVersion
    rw [Version.stripFrom_eq_self hfork, String.ofList_toList]
  unfold toFork
  rw [Text.stripPrefix?_append]
  show Version.stripLocalVersion (fork ++ "-" ++ rest) = _
  rw [Version.stripLocalVersion_append_dash, hself]

end Name

open Rebadge.Path (IsPlain)

variable {c : Config} {name : String}

theorem dot_not_mem_distName (c : Config) : '.' ∉ c.distName.toList :=
  Name.separator_not_mem_normalize (by decide) (by decide) _

theorem dot_not_mem_forkDistName (c : Config) : '.' ∉ c.forkDistName.toList :=
  Name.separator_not_mem_normalize (by decide) (by decide) _

theorem dash_not_mem_forkDistName (c : Config) : '-' ∉ c.forkDistName.toList :=
  Name.separator_not_mem_normalize (by decide) (by decide) _

theorem renamed_eq (c : Config) (name : String) :
    ∃ full, c.renamed name = Version.stripLocalVersion full ∧
    (full = name ∨ ∃ rest, (c.distName ++ "-").toList ++ rest = name.toList ∧
      full.toList = c.forkDistName.toList ++ "-".toList ++ rest) := by
  unfold Config.renamed Name.toFork Text.stripPrefix?
  cases hpre : (c.distName ++ "-").toList.isPrefixOf? name.toList with
  | none => exact ⟨name, rfl, Or.inl rfl⟩
  | some rest =>
    refine ⟨c.forkDistName ++ "-" ++ String.ofList rest, rfl, Or.inr ⟨rest, ?_, ?_⟩⟩
    · exact List.isPrefixOf?_eq_some_iff_append_eq.1 hpre
    · simp only [String.toList_append, String.toList_ofList]

theorem slash_renamed (hfork : '/' ∉ c.forkDistName.toList) (h : '/' ∉ name.toList) :
    '/' ∉ (c.renamed name).toList := by
  obtain ⟨full, heq, hfull⟩ := renamed_eq c name
  rw [heq, Version.toList_stripLocalVersion]
  intro hmem
  replace hmem := Version.mem_of_mem_stripFrom hmem
  rcases hfull with rfl | ⟨rest, hname, hfull⟩
  · exact h hmem
  · rw [hfull, List.mem_append, List.mem_append] at hmem
    rcases hmem with (hmem | hmem) | hmem
    · exact hfork hmem
    · exact absurd hmem (by decide)
    · exact h (hname ▸ List.mem_append_right _ hmem)

/-- Dots alone are the name under the fork of themselves only. -/
theorem eq_of_renamed_eq {dots : String} (hd : 'd' ∉ dots.toList) (hdash : '-' ∉ dots.toList)
    (h : c.renamed name = dots) : name = dots := by
  obtain ⟨full, heq, hfull⟩ := renamed_eq c name
  have hlist : dots.toList = Version.stripFrom 0 full.toList := by
    rw [← h, heq]
    exact String.toList_ofList
  rw [hlist] at hd
  rw [Version.stripFrom_eq_self_of_not_mem hd, String.toList_inj] at hlist
  rcases hfull with rfl | ⟨rest, -, hfull⟩
  · exact hlist.symm
  · rw [hlist, hfull] at hdash
    exact absurd (by simp) hdash

/-- **The name under the fork** of a plain name is plain as well. -/
theorem isPlain_renamed (hfork : '/' ∉ c.forkDistName.toList) (h : IsPlain name) :
    IsPlain (c.renamed name) where
  ne_empty := fun heq => h.ne_empty (eq_of_renamed_eq (by decide) (by decide) heq)
  ne_current := fun heq => h.ne_current (eq_of_renamed_eq (by decide) (by decide) heq)
  ne_parent := fun heq => h.ne_parent (eq_of_renamed_eq (by decide) (by decide) heq)
  slash := slash_renamed hfork h.slash

namespace Release

variable {dist path : String}

theorem distPath_eq (h : IsPlain name) (dist : String) :
    distPath dist name = .ok (Path.join dist name) := by
  have hcomponents : Path.components ("/".intercalate [name]) = [name].map .normal :=
    Path.components_intercalate (List.forall_mem_singleton.2 h) (List.cons_ne_nil _ _)
  rw [String.intercalate_singleton] at hcomponents
  unfold distPath
  rw [hcomponents]
  exact if_pos rfl

theorem distPath_error (h : ¬ IsPlain name) (dist : String) :
    distPath dist name = .error (.malformed name .notAFileName) := by
  unfold distPath
  split
  · next other hcomponents =>
    split
    · next heq =>
      subst heq
      exact absurd (Path.isPlain_of_mem_components (by rw [hcomponents]; simp)) h
    · rfl
  · rfl

theorem distPath_ok (h : distPath dist name = .ok path) :
    path = Path.join dist name ∧ IsPlain name := by
  by_cases hplain : IsPlain name
  · rw [distPath_eq hplain] at h
    exact ⟨(Except.ok.inj h).symm, hplain⟩
  · rw [distPath_error hplain] at h
    exact absurd h (by simp)

end Release

theorem renamed_project (c : Config) (rest : String) :
    c.renamed (c.distName ++ "-" ++ rest) = c.forkDistName ++ "-" ++
    Version.stripLocalVersion rest :=
  Name.toFork_project (dot_not_mem_forkDistName c) rest

theorem renamed_empty (c : Config) : c.renamed "" = "" := by
  obtain ⟨full, heq, rfl | ⟨rest, hname, -⟩⟩ := renamed_eq c ""
  · rw [heq]
    decide
  · simp at hname

end Rebadge
