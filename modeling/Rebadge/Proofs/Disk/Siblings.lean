import Rebadge.Proofs.Disk.Joining
import Rebadge.Proofs.Disk.Operations
import Rebadge.Proofs.Tree.Listing

/-!
# Another name in the same directory

What gets another name takes along all below it (`rename_ok`). A file that gets another name in its
directory takes the place of what is there, unless that is a directory (`rename_sibling`); nothing
else changes (`get?_moveFile`).
-/

namespace Rebadge

namespace Path

variable {name : String}

/-- A path that was joined to a name ends in it. -/
theorem endsInDots_join_eq (dir : String) (hslash : '/' ∉ name.toList) (hne : name ≠ "") :
    endsInDots (join dir name) = (name == "." || name == "..") := by
  obtain ⟨front, hsplit, -⟩ := split_join dir hslash
  have hlast : ((Text.split (join dir name) '/').filter (· != "")).getLast? = some name := by
    rw [hsplit, List.filter_append, List.filter_cons_of_pos (by simpa using hne), List.filter_nil,
      List.getLast?_concat]
  unfold endsInDots
  rw [hlast]

theorem endsInDots_join (dir : String) (h : IsPlain name) : endsInDots (join dir name) = false := by
  rw [endsInDots_join_eq dir h.slash h.ne_empty]
  simp [h.ne_current, h.ne_parent]

theorem endsInSlash_join (dir : String) (h : IsPlain name) :
    endsInSlash (join dir name) = false := by
  obtain ⟨front, hsplit, -⟩ := split_join dir h.slash
  have hpieces : ∀ p ∈ Text.split (join dir name) '/', '/' ∉ p.toList :=
    fun p hp => Text.not_mem_of_mem_split hp
  have hlast := getLast?_intercalate hpieces front hsplit h.ne_empty
  rw [Text.intercalate_split] at hlast
  unfold endsInSlash
  rw [hlast]
  refine Bool.eq_false_iff.2 fun heq => h.slash ?_
  rw [beq_iff_eq] at heq
  exact List.mem_of_getLast? heq

theorem fileName?_join (dir : String) (h : IsPlain name) :
    fileName? (join dir name) = some name := by
  unfold fileName?
  rw [components_join dir h, List.getLast?_concat]

theorem join_inj (dir : String) {a b : String} (ha : IsPlain a) (hb : IsPlain b) :
    join dir a = join dir b ↔ a = b := by
  refine ⟨fun h => ?_, fun h => by rw [h]⟩
  have hname := fileName?_join dir ha
  rw [h, fileName?_join dir hb, Option.some.injEq] at hname
  exact hname.symm

end Path

namespace Tree

variable {t : Tree} {s k : Location}

theorem WellFormed.below_file (hwf : t.WellFormed) (hs : ∀ m, t.get? s ≠ some (.dir m))
    {r : Location} (hr : r ≠ []) : t.get? (s ++ r) = none := by
  refine Decidable.byContradiction fun hsome => ?_
  obtain ⟨m, hm⟩ := hwf s r hr hsome
  exact hs m hm

theorem sibling_prefix {D : Location} {a b : String} {r : Location} (h : D ++ [a] <+: D ++ b :: r) :
    a = b := by
  rw [List.prefix_append_right_inj, List.cons_prefix_cons] at h
  exact h.1

/-- **A file at another place.** Only its old place and its new one change. -/
theorem get?_moveFile (hwf : t.WellFormed) {source target : Location}
    (hs : source ≠ []) (ht : target ≠ []) {c : Content} {m : Nat}
    (hfile : t.get? source = some (.file c m)) (hdir : ∀ m, t.get? target ≠ some (.dir m))
    (k : Location) : (t.move source target).get? k =
      if k = target then some (.file c m) else if k = source then none else t.get? k := by
  by_cases hk : target <+: k
  · obtain ⟨r, rfl⟩ := hk
    rw [get?_move hs ht]
    by_cases hr : r = []
    · rw [hr, List.append_nil, List.append_nil, if_pos rfl, hfile]
    · rw [if_neg (by simpa using hr), hwf.below_file (by simp [hfile]) hr]
      split
      · rfl
      · rw [hwf.below_file hdir hr]
  · have hne : k ≠ target := by
      rintro rfl
      exact hk (List.prefix_refl _)
    rw [get?_move_other hs ht hk, if_neg hne]
    by_cases hpre : source <+: k
    · rw [if_pos hpre]
      obtain ⟨r, rfl⟩ := hpre
      split
      · rfl
      · next hr => rw [hwf.below_file (by simp [hfile]) (by simpa using hr)]
    · rw [if_neg hpre, if_neg (by rintro rfl; exact hpre (List.prefix_refl _))]

/-- The tree stays well-formed if the file stays in its directory. -/
theorem WellFormed.moveSibling (hwf : t.WellFormed) {D : Location} {a b : String}
    {c : Content} {m : Nat} (hfile : t.get? (D ++ [a]) = some (.file c m))
    (hdir : ∀ m, t.get? (D ++ [b]) ≠ some (.dir m)) :
    (t.move (D ++ [a]) (D ++ [b])).WellFormed := by
  have hget := get?_moveFile hwf (by simp) (by simp) hfile hdir
  intro k r hr hsome
  have hold : ∃ m, t.get? k = some (.dir m) := by
    rw [hget] at hsome
    by_cases htarget : k ++ r = D ++ [b]
    · -- What is above the new place is above the old one.
      obtain ⟨rest, rfl⟩ : ∃ rest, D = k ++ rest := by
        rw [← List.dropLast_concat_getLast hr, ← List.append_assoc] at htarget
        exact ⟨_, (List.append_inj' htarget rfl).1.symm⟩
      refine hwf k (rest ++ [a]) (by simp) ?_
      rw [← List.append_assoc, hfile]
      simp
    · rw [if_neg htarget] at hsome
      split at hsome
      · exact absurd rfl hsome
      · exact hwf k r hr hsome
  obtain ⟨m', hm'⟩ := hold
  refine ⟨m', ?_⟩
  rw [hget, if_neg (by rintro rfl; exact hdir m' hm'),
    if_neg (by rintro rfl; rw [hfile] at hm'; simp at hm'), hm']

end Tree

namespace Disk

open Rebadge.Path (IsPlain)

variable {d d' : Disk} {dir : String} {D : Location} {a b : String}

/-- What was at and below one location is at another one, and nothing else has changed. -/
structure Moves (source target : Location) (d d' : Disk) : Prop where
  taken : ∀ r, d'.tree.get? (target ++ r) = d.tree.get? (source ++ r)
  gone : source ≠ target → ∀ r, d'.tree.get? (source ++ r) = none
  others : ∀ k, ¬ source <+: k → ¬ target <+: k → d'.tree.get? k = d.tree.get? k
  cwd : d'.cwd = d.cwd

/-- What a path with dots at its end leads to does not get another name. -/
theorem endsInDots_of_rename {source target : String} (h : d.rename source target = .ok d') :
    Path.endsInDots source = false := by
  unfold Disk.rename at h
  simp only [except_bind_ok] at h
  obtain ⟨s, -, t, -, h⟩ := h
  cases hdots : Path.endsInDots source with
  | false => rfl
  | true => simp [hdots] at h

/-- **Where the node goes.** -/
theorem rename_ok {source target : String} (h : d.rename source target = .ok d') :
    ∃ s t n, d.locate source false = .ok s ∧ d.locate target false = .ok t ∧
      d.tree.get? s = some n ∧ Moves s t d d' := by
  unfold Disk.rename at h
  simp only [except_bind_ok] at h
  obtain ⟨s, hs, t, ht, h⟩ := h
  split at h
  · exact absurd h (by simp)
  cases hn : d.tree.get? s with
  | none => simp [hn] at h
  | some n =>
    refine ⟨s, t, n, hs, ht, hn, ?_⟩
    simp only [hn] at h
    split at h
    · exact absurd h (by simp)
    by_cases heq : s = t
    · rw [if_pos heq, Except.ok.injEq] at h
      subst h heq
      exact ⟨fun _ => rfl, fun hne => absurd rfl hne, fun _ _ _ => rfl, rfl⟩
    rw [if_neg heq] at h
    simp only [List.isPrefixOf_iff_prefix] at h
    split at h
    · exact absurd h (by simp)
    next hst =>
    split at h
    · exact absurd h (by simp)
    next hts =>
    have hd' : d' = { d with tree := d.tree.move s t } := by
      split at h
      · exact (Except.ok.inj h).symm
      · split at h
        · exact absurd h (by simp)
        split at h
        · exact absurd h (by simp)
        split at h
        · exact absurd h (by simp)
        · exact (Except.ok.inj h).symm
    have hsnil : s ≠ [] := by rintro rfl; exact hst List.nil_prefix
    have htnil : t ≠ [] := by rintro rfl; exact hts List.nil_prefix
    subst hd'
    refine ⟨fun r => Tree.get?_move hsnil htnil r, fun _ r => ?_, fun k hk hk' => ?_, rfl⟩
    · have hnot : ¬ t <+: s ++ r := fun hpre =>
        (List.prefix_or_prefix_of_prefix hpre (List.prefix_append s r)).elim hts hst
      exact (Tree.get?_move_other hsnil htnil hnot).trans (if_pos (List.prefix_append s r))
    · exact (Tree.get?_move_other hsnil htnil hk').trans (if_neg hk)

/-- **Another name** for a file. -/
theorem rename_sibling (ha : IsPlain a) (hb : IsPlain b)
    (hsource : d.locate (Path.join dir a) false = .ok (D ++ [a]))
    (htarget : d.locate (Path.join dir b) false = .ok (D ++ [b])) {c : Content} {m : Nat}
    (hfile : d.tree.get? (D ++ [a]) = some (.file c m)) :
    d.rename (Path.join dir a) (Path.join dir b) =
      if a = b then .ok d
      else if (d.tree.get? (D ++ [b])).any Node.isDir then .error (.os .isADirectory)
      else .ok { d with tree := d.tree.move (D ++ [a]) (D ++ [b]) } := by
  unfold Disk.rename
  rw [hsource, htarget]
  simp only [bind, Except.bind, Path.endsInDots_join dir ha, Path.endsInDots_join dir hb,
    Path.endsInSlash_join dir ha, Path.endsInSlash_join dir hb, hfile, Node.isDir, Bool.or_self,
    Bool.false_eq_true, if_false, Bool.not_false,
    Bool.and_false, Bool.true_and, Bool.false_and, List.append_cancel_left_eq,
    List.cons.injEq, and_true,
    List.isPrefixOf_iff_prefix]
  by_cases heq : a = b
  · rw [if_pos heq, if_pos heq]
  · rw [if_neg heq, if_neg heq, if_neg fun h => heq (Tree.sibling_prefix h),
      if_neg fun h => heq (Tree.sibling_prefix h).symm]
    cases d.tree.get? (D ++ [b]) with
    | none => rfl
    | some n => cases n <;> rfl

end Disk
end Rebadge
