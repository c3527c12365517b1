import Rebadge.Proofs.Disk.Scratch
import Rebadge.Proofs.Tree.Listing

/-!
# Moving within a scratch directory

Changes outside a scratch directory that leave directories alone do not matter to it
(`Scratch.rewrite`). When it holds a single directory, this one can be given another name
(`Scratch.rename_ok`), and takes along what is below it (`get?_renamedIn`).
-/

namespace Rebadge.Disk

open Rebadge.Path (IsPlain IsBase)
open Rebadge.Tree (IsDirs Around)

variable {d d' : Disk} {base : List String} {l la : Location} {old new : String}

/-! ## Changes elsewhere -/

theorem get?_put_file {c : Content} {m : Nat} (hfile : d.tree.get? la = some (.file c m))
    (n : Node) (k : Location) :
    (d.put la n).tree.get? k = if k = la then some n else d.tree.get? k :=
  Tree.get?_put (Tree.ne_nil_of_file hfile) n k

theorem Scratch.rewrite (h : Scratch d base l) (hla : ¬ l <+: la) {c c' : Content} {m m' : Nat}
    (hfile : d.tree.get? la = some (.file c m)) : Scratch (d.put la (.file c' m')) base l := by
  have hget := get?_put_file hfile (.file c' m')
  have hsame : ∀ r, (d.put la (.file c' m')).tree.get? (l ++ r) = d.tree.get? (l ++ r) := by
    intro r
    rw [hget, if_neg]
    rintro rfl
    exact hla (List.prefix_append l r)
  have hself := hsame []
  rw [List.append_nil] at hself
  have haround : Around l d.tree (d.put la (.file c' m')).tree := by
    refine ⟨fun k n _ hn => ?_, by rw [hself]; exact h.dir⟩
    rw [hget]
    by_cases hk : k = la
    · rw [hk, hfile, Option.some.injEq] at hn
      rw [if_pos hk, ← hn]
      exact ⟨_, rfl, .file _ _ _ _⟩
    · rw [if_neg hk]
      exact ⟨n, hn, .refl n⟩
  refine ⟨h.isBase, fun t ht => h.reach t (haround.trans ht), haround.dir, fun r => ?_,
    fun q r hr => ?_, ?_⟩
  · rw [hsame]
    exact h.noLink r
  · rw [List.append_assoc, hsame, hsame, ← List.append_assoc]
    exact h.closed q r hr
  · have hne := Tree.ne_nil_of_file hfile
    have hkey : la ∈ d.tree.keys := by
      refine Decidable.byContradiction fun hnot => ?_
      rw [(Tree.get?_eq_none_iff hne).2 hnot] at hfile
      exact absurd hfile (by simp)
    show ((d.tree.put la _).keys.filter _).Nodup
    rw [Tree.keys_put, if_pos hkey]
    exact h.nodup

/-! ## A single directory -/

/-- The only thing in the directory is a directory of that name. -/
structure Single (d : Disk) (l : Location) (name : String) : Prop where
  dir : ∃ m, d.tree.get? (l ++ [name]) = some (.dir m)
  only : ∀ y r, d.tree.get? (l ++ y :: r) ≠ none → y = name

/-- The disk with the directory under another name. -/
def renamedIn (d : Disk) (l : Location) (old new : String) : Disk :=
  if old = new then d else { d with tree := d.tree.move (l ++ [old]) (l ++ [new]) }

theorem not_prefix_of_ne {y z : String} (h : y ≠ z) (r : Location) :
    ¬ l ++ [y] <+: l ++ z :: r := by
  rintro ⟨r', hr'⟩
  rw [List.append_assoc, List.append_cancel_left_eq, List.singleton_append] at hr'
  exact h (List.cons.inj hr').1

theorem get?_renamedIn (r : Location) :
    (d.renamedIn l old new).tree.get? (l ++ new :: r) = d.tree.get? (l ++ old :: r) := by
  unfold renamedIn
  split
  · next heq => rw [heq]
  · rw [List.append_cons l new r, List.append_cons l old r]
    exact Tree.get?_move (by simp) (by simp) r

theorem get?_renamedIn_of_ne (h : Single d l old) {y : String} (hy : y ≠ new) (r : Location) :
    (d.renamedIn l old new).tree.get? (l ++ y :: r) = none := by
  unfold renamedIn
  split
  · next heq =>
    refine Decidable.byContradiction fun hsome => hy ?_
    rw [← heq]
    exact h.only y r hsome
  · rw [Tree.get?_move_other (by simp) (by simp) (not_prefix_of_ne (Ne.symm hy) r)]
    by_cases hold : y = old
    · rw [if_pos]
      rw [hold, List.append_cons l old r]
      exact List.prefix_append _ _
    · rw [if_neg (not_prefix_of_ne (Ne.symm hold) r)]
      exact Decidable.byContradiction fun hsome => hold (h.only y r hsome)

theorem get?_renamedIn_outside {k : Location} (hk : ∀ y r, k ≠ l ++ y :: r) :
    (d.renamedIn l old new).tree.get? k = d.tree.get? k := by
  have hnot : ∀ z, ¬ l ++ [z] <+: k := by
    rintro z ⟨r, hr⟩
    refine hk z r ?_
    rw [← hr, ← List.append_cons]
  unfold renamedIn
  split
  · rfl
  · rw [Tree.get?_move_other (by simp) (by simp) (hnot new), if_neg (hnot old)]

theorem get?_renamedIn_apart {k : Location} (hk : ¬ l <+: k) :
    (d.renamedIn l old new).tree.get? k = d.tree.get? k := by
  refine get?_renamedIn_outside fun y r heq => hk ?_
  rw [heq]
  exact List.prefix_append _ _

theorem Scratch.renamedIn (h : Scratch d base l) (new : String) (hsingle : Single d l old) :
    Scratch (d.renamedIn l old new) base l := by
  have hself : (d.renamedIn l old new).tree.get? l = d.tree.get? l := by
    refine get?_renamedIn_outside fun y r hl => ?_
    rw [← List.append_nil l, List.append_assoc, List.append_cancel_left_eq] at hl
    exact absurd hl (by simp)
  have haround : Around l d.tree (d.renamedIn l old new).tree := by
    exact ⟨fun k n hk hn =>
      ⟨n, (get?_renamedIn_apart hk).trans hn, .refl n⟩, by rw [hself]; exact h.dir⟩
  -- Below the directory every node comes from the old name.
  have hbelow : ∀ y r, (d.renamedIn l old new).tree.get? (l ++ y :: r) ≠ none →
      y = new ∧ (d.renamedIn l old new).tree.get? (l ++ y :: r) = d.tree.get? (l ++ old :: r) := by
    intro y r hsome
    by_cases hy : y = new
    · exact ⟨hy, by rw [hy, get?_renamedIn]⟩
    · exact absurd (get?_renamedIn_of_ne hsingle hy r) hsome
  have hcwd : (d.renamedIn l old new).cwd = d.cwd := by
    unfold Disk.renamedIn
    split <;> rfl
  refine ⟨h.isBase, fun t ht follow => ?_, haround.dir, fun r target hlink => ?_,
    fun q r hr hsome => ?_, ?_⟩
  · have hreach := h.reach t (haround.trans ht) follow
    rwa [startOf_of_cwd hcwd]
  · cases r with
    | nil =>
      rw [List.append_nil, hself] at hlink
      exact h.noLink [] target (by rwa [List.append_nil])
    | cons y r =>
      rw [(hbelow y r (by simp [hlink])).2] at hlink
      exact h.noLink _ target hlink
  · cases q with
    | nil =>
      rw [List.append_nil, hself]
      exact h.dir
    | cons y q =>
      rw [List.append_assoc, List.cons_append] at hsome
      obtain ⟨rfl, heq⟩ := hbelow y (q ++ r) hsome
      rw [heq] at hsome
      rw [get?_renamedIn]
      exact h.closed (old :: q) r hr (by rwa [List.append_assoc, List.cons_append])
  · unfold Disk.renamedIn
    split
    · exact h.nodup
    · exact Tree.nodup_keys_move h.nodup (List.prefix_append l [old])

/-- **A free name.** A directory gets it if both paths fit. -/
theorem Scratch.rename_free (h : Scratch d base l)
    (hdir : ∃ m, d.tree.get? (l ++ [old]) = some (.dir m))
    (hfree : old ≠ new → d.tree.get? (l ++ [new]) = none) (hold : Names base [old])
    (hnew : Names base [new]) :
    d.rename ("/".intercalate (base ++ [old])) ("/".intercalate (base ++ [new])) =
      .ok (d.renamedIn l old new) := by
  have hlocate : ∀ {y}, Names base [y] →
      d.locate ("/".intercalate (base ++ [y])) false = .ok (l ++ [y]) := by
    intro y hy
    have hlocate := h.locate_append hy h.isDirs_nil false
    rwa [List.append_nil] at hlocate
  obtain ⟨m, hdir⟩ := hdir
  unfold Disk.rename
  rw [hlocate hold, hlocate hnew]
  show (if (Path.endsInDots _ || Path.endsInDots _) = true then _ else _) = _
  rw [Path.endsInDots_append h.isBase (hold.plain old (by simp)),
    Path.endsInDots_append h.isBase (hnew.plain new (by simp)), hdir]
  unfold Disk.renamedIn
  by_cases heq : old = new
  · simp [heq, Node.isDir]
  · have hnot : ∀ {y z : String}, y ≠ z → (l ++ [y]).isPrefixOf (l ++ [z]) = false := by
      intro y z hyz
      rw [Bool.eq_false_iff, ne_eq, List.isPrefixOf_iff_prefix]
      exact not_prefix_of_ne hyz []
    simp [heq, Node.isDir, hfree heq, hnot heq, hnot (Ne.symm heq)]

/-- **A new name.** The only directory gets it if both paths fit. -/
theorem Scratch.rename_ok (h : Scratch d base l) (d' : Disk) (hsingle : Single d l old)
    (hold : IsPlain old) (hnew : IsPlain new) :
    d.rename ("/".intercalate (base ++ [old])) ("/".intercalate (base ++ [new])) = .ok d' ↔
      Fits ("/".intercalate (base ++ [old])) ∧ Fits ("/".intercalate (base ++ [new])) ∧
        d' = d.renamedIn l old new := by
  have hstep : Fits ("/".intercalate (base ++ [old])) → Fits ("/".intercalate (base ++ [new])) →
      d.rename ("/".intercalate (base ++ [old])) ("/".intercalate (base ++ [new])) =
        .ok (d.renamedIn l old new) := by
    intro hfits hfits'
    refine h.rename_free hsingle.dir (fun hne => ?_) ⟨by simpa using hold, hfits⟩
      ⟨by simpa using hnew, hfits'⟩
    exact Decidable.byContradiction fun hsome => hne (hsingle.only new [] hsome).symm
  constructor
  · intro hok
    have hfits : Fits ("/".intercalate (base ++ [old])) ∧
        Fits ("/".intercalate (base ++ [new])) := by
      unfold Disk.rename at hok
      obtain ⟨k, hk, hrest⟩ := except_bind_ok.1 hok
      obtain ⟨k', hk', -⟩ := except_bind_ok.1 hrest
      exact ⟨(fits_of_locate hk).1, (fits_of_locate hk').1⟩
    rw [hstep hfits.1 hfits.2, Except.ok.injEq] at hok
    exact ⟨hfits.1, hfits.2, hok.symm⟩
  · rintro ⟨hfits, hfits', rfl⟩
    exact hstep hfits hfits'

end Rebadge.Disk
