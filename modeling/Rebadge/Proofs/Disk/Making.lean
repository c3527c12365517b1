import Rebadge.Proofs.Disk.Scratch

/-!
# Making directories

The directories above a path are looked at from below: paths above are only visited where one is
missing. Along free names the outcome is the tree with the missing directories along the path
(`Along.ensureDirs`), with slashes at the end of the path or without.
-/

namespace Rebadge.Disk

open Rebadge.Path (IsPlain IsBase)
open Rebadge.Tree (IsName IsDirs Extends makeWay)

variable {d : Disk} {base : List String} {path : String} {l : Location} {names tail : List String}
  {name : String}

/-! ## The directories above a path -/

/-- Along the names there are directories or nothing. -/
def Free (t : Tree) (l : Location) (names : List String) : Prop :=
  ∀ q, q ≠ [] → q <+: names → t.get? (l ++ q) = none ∨ ∃ m, t.get? (l ++ q) = some (.dir m)

theorem Free.left {t : Tree} {q r : List String} (h : Free t l (q ++ r)) : Free t l q :=
  fun a ha hpre => h a ha (hpre.trans (List.prefix_append q r))

/-- Along free names all are directories, or there is a first one that is missing. -/
theorem Free.dirs_or_missing {t : Tree} (hl : ∃ m, t.get? l = some (.dir m)) (h : Free t l names) :
    IsDirs t l names ∨ ∃ q y r, names = q ++ y :: r ∧ IsDirs t l q ∧
    t.get? (l ++ q ++ [y]) = none := by
  induction names using List.reverseRecOn with
  | nil =>
    refine Or.inl fun q r hqr => ?_
    obtain ⟨rfl, -⟩ := List.append_eq_nil_iff.1 hqr.symm
    simpa using hl
  | append_singleton names name ih =>
    rcases ih h.left with hdirs | ⟨q, y, r, rfl, hdirs, hnone⟩
    · rcases h (names ++ [name]) (by simp) (List.prefix_refl _) with hnone | hdir
      · exact Or.inr ⟨names, name, [], rfl, hdirs, by rwa [List.append_assoc]⟩
      · exact Or.inl (hdirs.concat hdir)
    · exact Or.inr ⟨q, y, r ++ [name], by simp, hdirs, hnone⟩

theorem isDirs_makeWay (hl : ∃ m, d.tree.get? l = some (.dir m)) (h : Free d.tree l names) :
    IsDirs (makeWay d.tree l names) l names := by
  intro q r hqr
  by_cases hq : q = []
  · obtain ⟨m, hm⟩ := hl
    exact ⟨m, (Tree.get?_makeWay _ _ _ _ _).2 (Or.inl (by rwa [hq, List.append_nil]))⟩
  · rcases h q hq ⟨r, hqr.symm⟩ with hnone | ⟨m, hm⟩
    · exact ⟨newDirMode,
        (Tree.get?_makeWay _ _ _ _ _).2 (Or.inr ⟨hnone, rfl, q, hq, ⟨r, hqr.symm⟩, rfl⟩)⟩
    · exact ⟨m, (Tree.get?_makeWay _ _ _ _ _).2 (Or.inl hm)⟩

theorem makeWay_of_isDirs {t : Tree} (h : IsDirs t l names) : makeWay t l names = t := by
  induction names using List.reverseRecOn with
  | nil => rfl
  | append_singleton names name ih =>
    obtain ⟨m, hm⟩ := h.self
    rw [Tree.makeWay_concat, ih h.left, if_neg]
    rw [List.append_assoc, hm]
    simp

theorem makeWay_makeWay (hl : ∃ m, d.tree.get? l = some (.dir m)) (h : Free d.tree l names)
    (more : List String) :
    makeWay (makeWay d.tree l names) l (names ++ more) = makeWay d.tree l (names ++ more) := by
  rw [Tree.makeWay_append, makeWay_of_isDirs (isDirs_makeWay hl h), ← Tree.makeWay_append]

/-- Names stay free when directories are made along some names. -/
theorem Free.makeWay {t : Tree} (h : Free t l names) (q : List String) :
    Free (Tree.makeWay t l q) l names := by
  intro p hp hpre
  cases hget : (Tree.makeWay t l q).get? (l ++ p) with
  | none => exact Or.inl rfl
  | some n =>
    rcases (Tree.get?_makeWay _ _ _ _ _).1 hget with hold | ⟨-, rfl, -⟩
    · rcases h p hp hpre with hnone | ⟨m, hm⟩
      · rw [hnone] at hold
        exact absurd hold (by simp)
      · rw [hm, Option.some.injEq] at hold
        exact Or.inr ⟨m, by rw [hold]⟩
    · exact Or.inr ⟨newDirMode, rfl⟩

theorem Scratch.makeWay (h : Scratch d base l) (hfree : Free d.tree l names) :
    Scratch { d with tree := Tree.makeWay d.tree l names } base l := by
  induction names using List.reverseRecOn with
  | nil => exact h
  | append_singleton names name ih =>
    have hs := ih hfree.left
    rw [Tree.makeWay_concat]
    by_cases hnone : (Tree.makeWay d.tree l names).get? (l ++ names ++ [name]) = none
    · rw [if_pos hnone]
      exact hs.put (isDirs_makeWay h.dir hfree.left) hnone (by simp)
    · rw [if_neg hnone]
      exact hs

/-! ## Along the names of a path -/

theorem Along.makeWay (h : d.Along path l names tail) (q : List String) :
    Along { d with tree := Tree.makeWay d.tree l q } path l names tail :=
  h.extends (Tree.extends_makeWay _ _ _) rfl

theorem Along.ensureDir (h : d.Along path l (names ++ [name]) tail) (hdirs : IsDirs d.tree l names)
    (hfree : Free d.tree l (names ++ [name])) :
    d.ensureDir path = ({ d with tree := Tree.makeWay d.tree l (names ++ [name]) }, .ok ()) := by
  have hnode := hfree (names ++ [name]) (by simp) (List.prefix_refl _)
  rw [← List.append_assoc] at hnode
  have hloc := h.locate hdirs (hnode.imp_right Or.inl)
  rw [Tree.makeWay_concat, makeWay_of_isDirs hdirs]
  rcases hnode with hnone | ⟨m, hm⟩
  · rw [if_pos hnone, ensureDir_new (hloc false) hnone]
    rfl
  · rw [if_neg (by rw [hm]; exact Option.some_ne_none _), ensureDir_exists hloc hm]

theorem Along.ensureAncestors (h : d.Along path l names tail) (hne : names ≠ [])
    (hfree : Free d.tree l names) {fuel : Nat} (hfuel : names.length ≤ fuel) :
    d.ensureAncestors (path :: Path.above fuel path) =
      ({ d with tree := Tree.makeWay d.tree l names }, .ok ()) := by
  induction names using List.reverseRecOn generalizing path tail fuel with
  | nil => exact absurd rfl hne
  | append_singleton names name ih =>
    rw [Disk.ensureAncestors, if_neg h.fits.ne_empty]
    rcases hfree.left.dirs_or_missing h.dir with hdirs | ⟨q, y, r, hqr, hdirs, hnone⟩
    · have hnot : d.makeDir path ≠ .error (.os .notFound) := by
        have hnode := hfree (names ++ [name]) (by simp) (List.prefix_refl _)
        rw [← List.append_assoc] at hnode
        have hloc := h.locate hdirs (hnode.imp_right Or.inl) false
        cases hget : d.tree.get? (l ++ names ++ [name]) with
        | none =>
          rw [makeDir_new hloc hget]
          simp
        | some n =>
          rw [makeDir_exists hloc hget]
          simp
      rw [← h.ensureDir hdirs hfree]
      split
      · next hmake => exact absurd hmake hnot
      · rfl
    · -- A directory above is missing, so the path above comes first.
      obtain ⟨parent, hparent, habove⟩ := h.parent?
      obtain ⟨habove, hnames⟩ := habove.resolve_right fun hnil => by simp [hqr] at hnil
      obtain ⟨fuel, rfl⟩ : ∃ k, fuel = k + 1 := by
        rw [List.length_append, List.length_singleton] at hfuel
        exact ⟨fuel - 1, by omega⟩
      rw [List.length_append, List.length_singleton] at hfuel
      have hsplit : d.Along path l (q ++ y :: (r ++ [name])) tail := by
        rwa [← List.cons_append, ← List.append_assoc, ← hqr]
      have hmissing : d.makeDir path = .error (.os .notFound) :=
        makeDir_error (hsplit.locate_missing (by simp) hdirs hnone false)
      have hmade := ih habove hnames hfree.left (Nat.le_of_succ_le_succ hfuel)
      have hnext := (h.makeWay names).ensureDir (isDirs_makeWay h.dir hfree.left)
        (hfree.makeWay names)
      rw [makeWay_makeWay h.dir hfree.left] at hnext
      rw [hmissing, Path.above, hparent]
      simp only [hmade]
      exact hnext

/-- **Making directories.** The directories along the names are made where they are missing, if
nothing is in the way. -/
theorem Along.ensureDirs (h : d.Along path l names tail) (hne : names ≠ [])
    (hfree : Free d.tree l names) :
    d.ensureDirs path = ({ d with tree := Tree.makeWay d.tree l names }, .ok ()) :=
  h.ensureAncestors hne hfree h.length_le

theorem ensureDirs_of_isDir (h : d.isDir path = true) : d.ensureDirs path = (d, .ok ()) := by
  obtain ⟨k, m, hfind⟩ := isDir_iff.1 h
  obtain ⟨⟨k', n⟩, hnofollow⟩ := find_nofollow hfind
  obtain ⟨hlocate, hget⟩ := find_ok.1 hnofollow
  have hmake := makeDir_exists hlocate hget
  unfold Disk.ensureDirs Path.ancestors
  rw [Disk.ensureAncestors, hmake]
  unfold Disk.ensureDir
  simp [hmake, h]

/-- **The directories above** a path are made. -/
theorem Along.ensureParents (h : d.Along path l (names ++ [name]) tail)
    (hfree : Free d.tree l names) :
    ∃ parent, Path.parent? path = some parent ∧
      d.ensureDirs parent = ({ d with tree := Tree.makeWay d.tree l names }, .ok ()) := by
  obtain ⟨parent, hparent, ⟨habove, hnames⟩ | ⟨rfl, rfl | hdir⟩⟩ := h.parent?
  · exact ⟨parent, hparent, habove.ensureDirs hnames hfree⟩
  · exact ⟨_, hparent, rfl⟩
  · exact ⟨_, hparent, ensureDirs_of_isDir hdir⟩

theorem Scratch.ensureDirs (hs : Scratch d base l) (hn : Names base names)
    (hfree : Free d.tree l names) :
    d.ensureDirs ("/".intercalate (base ++ names)) =
      ({ d with tree := Tree.makeWay d.tree l names }, .ok ()) := by
  by_cases hnil : names = []
  · obtain ⟨m, hm⟩ := hs.dir
    have hfits := hn.fits
    subst hnil
    rw [List.append_nil] at hfits ⊢
    exact ensureDirs_of_isDir (isDir_of_locate (hs.locate_self hfits true) hm)
  · exact (hs.along_names hn).ensureDirs hnil hfree

end Rebadge.Disk
