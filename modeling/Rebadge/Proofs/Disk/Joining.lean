import Rebadge.Proofs.Disk.Along
import Rebadge.Proofs.Tree.Clear

/-!
# Names in a directory

The path of a directory with a name joined to it leads to that name in the directory, unless path or
name are too long (`Leads.locate_join`). Where the path of the directory leads may depend on other
nodes, but not on what the directory holds under the name. In a directory without links a relative
path that never goes up above its start stays below (`Leads.locate_below`), and so do the
directories that are made above it (`Leads.makeDir_below`).
-/

namespace Rebadge

namespace Disk

open Rebadge.Path (IsPlain)
open Rebadge.Tree (stays)

variable {d d' : Disk} {dir name : String} {D : Location}

/-- The path leads to a directory at the location; the empty one to the working directory. -/
structure Leads (d : Disk) (dir : String) (D : Location) : Prop where
  locate : if dir = "" then d.cwd = D else d.locate dir true = .ok D
  dir : ∃ m, d.tree.get? D = some (.dir m)

/-- Where the joined path leads. -/
def joined (dir : String) (D : Location) (name : String) : Except IoError Location :=
  if Text.hasChar (Path.join dir name) '\x00' then .error .nulInPath
  else if pathLimit ≤ (Path.join dir name).utf8ByteSize ∨ Tree.maxNameSize < name.utf8ByteSize then
    .error (.os .nameTooLong)
  else .ok (D ++ [name])

theorem joined_ok {k : Location} (h : joined dir D name = .ok k) : k = D ++ [name] := by
  unfold joined at h
  split at h
  · exact absurd h (by simp)
  split at h
  · exact absurd h (by simp)
  · exact (Except.ok.inj h).symm

theorem joined_of_fits (hname : IsPlain name) (h : Fits (Path.join dir name)) :
    joined dir D name = .ok (D ++ [name]) := by
  obtain ⟨front, hsplit, -⟩ := Path.split_join dir hname.slash
  have hsize := h.names name (by simp [hsplit])
  unfold joined
  rw [if_neg (by simp [h.nul]), if_neg]
  exact not_or.2 ⟨Nat.not_le.2 h.size_lt, Nat.not_lt.2 hsize⟩

/-- The first pieces of a relative path that is joined lead to the directory. -/
theorem Leads.front (h : d.Leads dir D) {part : String} (hpart : Path.isAbsolute part = false) :
    ∃ front, Text.split (Path.join dir part) '/' = front ++ Text.split part '/' ∧
      d.tree.walk true Tree.maxLinks (d.startOf (Path.join dir part)) front = .ok D := by
  obtain ⟨front, hsplit, habs, hfront⟩ := Path.split_join_relative dir hpart
  refine ⟨front, hsplit, ?_⟩
  rw [startOf_of_isAbsolute habs]
  have hlocate := h.locate
  rcases hfront with ⟨rfl, rfl⟩ | ⟨hne, hsplit⟩
  · rw [if_pos rfl] at hlocate
    rw [Tree.walk_eq, Tree.trail_nil, ← hlocate]
    rfl
  · rw [if_neg hne] at hlocate
    have hwalk := (fits_of_locate hlocate).2
    rcases hsplit with hsplit | hsplit
    · rwa [hsplit] at hwalk
    · rw [hsplit] at hwalk
      exact Tree.walk_concat_empty hwalk h.dir

theorem Leads.along (h : d.Leads dir D) {part : String} {names tail : List String}
    (hpart : Path.isAbsolute part = false) (hsplit : Text.split part '/' = names ++ tail)
    (hplain : ∀ p ∈ names, IsPlain p) (htail : ∀ p ∈ tail, p = "")
    (hfits : Fits (Path.join dir part)) : d.Along (Path.join dir part) D names tail := by
  obtain ⟨front, hfront, hwalk⟩ := h.front hpart
  exact ⟨hfits, hplain, htail, h.dir, front, by rw [hfront, hsplit], hwalk⟩

/-- **Joined names** lead to the name in the directory. -/
theorem Leads.locate_join (h : d.Leads dir D) (hname : IsPlain name) (f : Bool)
    (hlink : f = false ∨ ∀ target, d.tree.get? (D ++ [name]) ≠ some (.link target)) :
    d.locate (Path.join dir name) f = joined dir D name := by
  obtain ⟨m, hdir⟩ := h.dir
  obtain ⟨front, hsplit, hwalk⟩ := h.front (Path.isAbsolute_plain hname.slash)
  rw [Path.split_plain hname.slash] at hsplit
  obtain ⟨b, hb⟩ := Tree.walk_append hdir hwalk f (List.cons_ne_nil name [])
  have hlast : d.tree.walk f b D [name] =
      if Tree.maxNameSize < name.utf8ByteSize then .error .nameTooLong else .ok (D ++ [name]) := by
    rw [Tree.walk_eq, Tree.trail_cons hdir, if_neg (by simp [hname.ne_empty, hname.ne_current]),
      if_neg hname.ne_parent]
    by_cases hsize : Tree.maxNameSize < name.utf8ByteSize
    · rw [if_pos hsize, if_pos hsize]
    · rw [if_neg hsize, if_neg hsize]
      cases hget : d.tree.get? (D ++ [name]) with
      | none => rfl
      | some n =>
        cases n with
        | dir m => rfl
        | file c m => rfl
        | link target =>
          rcases hlink with rfl | hnot
          · rfl
          · exact absurd hget (hnot target)
  have hne : Path.join dir name ≠ "" := by
    intro hempty
    rw [hempty, show Text.split "" '/' = [""] from rfl] at hsplit
    have hlength := congrArg List.length hsplit
    rw [List.length_append, List.length_singleton, List.length_singleton] at hlength
    obtain rfl : front = [] := List.length_eq_zero_iff.1 (by omega)
    exact hname.ne_empty (by simpa using hsplit.symm)
  have hsteps : d.tree.walk f Tree.maxLinks
      (if Path.isAbsolute (Path.join dir name) then [] else d.cwd)
        (Text.split (Path.join dir name) '/') =
        if Tree.maxNameSize < name.utf8ByteSize then .error .nameTooLong
            else .ok (D ++ [name]) := by
    rw [← hlast, ← hb, hsplit]
    rfl
  unfold Disk.locate joined
  rw [if_neg hne, hsteps]
  split
  · rfl
  · by_cases hsize : Tree.maxNameSize < name.utf8ByteSize
    · simp only [hsize, or_true, if_true]
      split <;> rfl
    · simp only [hsize, or_false, if_false]
      split <;> rfl

/-! ## Paths that stay below the directory -/

section Below

variable {part : String} (h : d.Leads dir D)
  (hlink : ∀ r target, d.tree.get? (D ++ r) ≠ some (.link target))
  (hpart : Path.isAbsolute part = false) (hstays : stays 0 (Text.split part '/') = true)

include h hlink hpart hstays

/-- A joined path that never goes up above its start leads to a place below the directory. -/
theorem Leads.locate_below {f : Bool} {k : Location}
    (hlocate : d.locate (Path.join dir part) f = .ok k) : D <+: k := by
  obtain ⟨front, hsplit, hwalk⟩ := h.front hpart
  obtain ⟨m, hdir⟩ := h.dir
  have hk := (fits_of_locate hlocate).2
  obtain ⟨b, hb⟩ := Tree.walk_append hdir hwalk f (Text.split_ne_nil part '/')
  rw [hsplit, hb] at hk
  exact Tree.walk_stays hlink hstays hk

/-- A directory that is made above it is made below the directory, since all above that are
there. -/
theorem Leads.makeDir_below {q : String}
    (hq : Path.IsLeading (Text.split (Path.join dir part) '/')
      (Path.isAbsolute (Path.join dir part)) q) (hmake : d.makeDir q = .ok d') :
    ∃ k, D <+: k ∧ d.tree.get? k = none ∧ d' = d.put k (.dir newDirMode) := by
  obtain ⟨k, hlocate, hnone, rfl⟩ := makeDir_ok hmake
  refine ⟨k, ?_, hnone, rfl⟩
  obtain ⟨front, hsplit, hwalk⟩ := h.front hpart
  obtain ⟨hfits, hk⟩ := fits_of_locate hlocate
  have hmissing : ¬ Path.IsLeading front (Path.isAbsolute (Path.join dir part)) q := by
    intro hleading
    obtain ⟨k', m, hfind⟩ := isDir_iff.1 (isDir_of_leading hleading hfits hwalk h.dir)
    obtain ⟨found, hfound⟩ := find_nofollow hfind
    obtain ⟨hlocate', hget⟩ := find_ok.1 hfound
    rw [hlocate, Except.ok.injEq] at hlocate'
    rw [← hlocate', hnone] at hget
    exact absurd hget (by simp)
  rcases hq with hempty | hroot | ⟨habs, hpre⟩
  · exact absurd (Or.inl hempty) hmissing
  · exact absurd (Or.inr (Or.inl hroot)) hmissing
  · rw [hsplit] at hpre
    rcases List.prefix_or_prefix_of_prefix hpre (List.prefix_append front _) with
      hshort | ⟨more, hmore⟩
    · exact absurd (Or.inr (Or.inr ⟨habs, hshort⟩)) hmissing
    have hne : more ≠ [] := by
      rintro rfl
      rw [List.append_nil] at hmore
      exact hmissing (Or.inr (Or.inr ⟨habs, hmore ▸ List.prefix_refl _⟩))
    rw [← hmore, List.prefix_append_right_inj] at hpre
    obtain ⟨rest, hrest⟩ := hpre
    obtain ⟨m, hdir⟩ := h.dir
    obtain ⟨b, hb⟩ := Tree.walk_append hdir hwalk false hne
    rw [← hmore, startOf_of_isAbsolute habs, hb] at hk
    exact Tree.walk_stays hlink (Tree.stays_left (hrest ▸ hstays)) hk

end Below

theorem Leads.extends (h : d.Leads dir D) (hext : Tree.Extends d.tree d'.tree)
    (hcwd : d'.cwd = d.cwd) : d'.Leads dir D := by
  obtain ⟨m, hdir⟩ := h.dir
  refine ⟨?_, hext.dir hdir⟩
  have hlocate := h.locate
  split
  · next hempty => rw [if_pos hempty] at hlocate; rw [hcwd, hlocate]
  · next hempty =>
    rw [if_neg hempty] at hlocate
    exact locate_of_extends hext hcwd hlocate (by simp [hdir])

end Disk
end Rebadge
