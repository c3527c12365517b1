import Mathlib.Data.List.Nodup
import Rebadge.Proofs.Disk.Joining
import Rebadge.Proofs.Disk.Scratch
import Rebadge.Proofs.Tree.Listing

/-!
# Disks that agree aside from some files

A disk without what is at certain locations is the part that all disks share which differ there only
(`Aside`). What a path leads to in this part it leads to on each of them (`Aside.find`), and the
free name for a scratch directory is the same (`Aside.freshName`).
-/

namespace Rebadge.Disk

open Rebadge.Path (IsPlain IsBase)
open Rebadge.Tree (Extends)

variable {d d' : Disk} {own : List Location} {k l : Location} {path : String}

/-! ## What the disks share -/

/-- The disk without the nodes at certain locations. -/
def without (d : Disk) (own : List Location) : Disk :=
  { d with tree := ⟨d.tree.nodes.filter fun p => !own.contains p.1⟩ }

theorem get?_without (h : [] ∉ own) (k : Location) :
    (d.without own).tree.get? k = if k ∈ own then none else d.tree.get? k := by
  unfold without Tree.get?
  by_cases hk : k = []
  · rw [if_pos hk, if_neg (by rwa [hk]), if_pos hk]
  · rw [if_neg hk, if_neg hk, Tree.nodeAt_filter fun j => !own.contains j]
    by_cases hmem : k ∈ own
    · simp [hmem]
    · simp [hmem]

/-- The disk is another one aside from certain locations. -/
structure Aside (own : List Location) (o d : Disk) : Prop where
  same : ∀ k, k ∉ own → d.tree.get? k = o.tree.get? k
  cwd : d.cwd = o.cwd

theorem Aside.refl (own : List Location) (d : Disk) : Aside own d d := ⟨fun _ _ => rfl, rfl⟩

theorem Aside.trans {e : Disk} (h : Aside own d d') (h' : Aside own d' e) : Aside own d e :=
  ⟨fun k hk => by rw [h'.same k hk, h.same k hk], by rw [h'.cwd, h.cwd]⟩

theorem Aside.mono {more : List Location} (h : Aside own d d') (hsub : own ⊆ more) :
    Aside more d d' :=
  ⟨fun k hk => h.same k fun hown => hk (hsub hown), h.cwd⟩

/-- The disk holds all nodes of another one. -/
structure Holds (o d : Disk) : Prop where
  node : ∀ k n, o.tree.get? k = some n → d.tree.get? k = some n
  cwd : d.cwd = o.cwd

theorem Aside.holds {o : Disk} (h : Aside own o d) (hroot : [] ∉ own) :
    Holds (o.without own) d := by
  refine ⟨fun k n hn => ?_, h.cwd⟩
  rw [get?_without hroot] at hn
  split at hn
  · exact absurd hn (by simp)
  · next hk => rw [h.same k hk, hn]

theorem Holds.extends (h : Holds d d') : Extends d.tree d'.tree :=
  fun k n hn => ⟨n, h.node k n hn, .refl n⟩

theorem Holds.find (h : Holds d d') {f : Bool} {n : Node} (hfind : d.find path f = .ok (k, n)) :
    d'.find path f = .ok (k, n) := by
  obtain ⟨hlocate, hget⟩ := find_ok.1 hfind
  exact find_eq (locate_of_extends h.extends h.cwd hlocate (by simp [hget])) (h.node k n hget)

theorem Holds.leads (h : Holds d d') {dir : String} {D : Location} (hleads : d.Leads dir D) :
    d'.Leads dir D :=
  hleads.extends h.extends h.cwd

/-! ## Free names -/

theorem scratchName_inj {n m : Nat} : scratchName n = scratchName m ↔ n = m := by
  refine ⟨fun h => ?_, fun h => by rw [h]⟩
  unfold scratchName at h
  rw [Nat.toString_eq_repr, Nat.toString_eq_repr, ← String.toList_inj, String.toList_append,
    String.toList_append, List.append_cancel_left_eq, Nat.toList_repr, Nat.toList_repr] at h
  rw [← Nat.ofDigitChars_toDigits (n := n) (b := 10) (by omega) (by omega), h,
    Nat.ofDigitChars_toDigits (by omega) (by omega)]

theorem freshName_eq (taken : List String) :
    ∃ n, freshName taken = scratchName n ∧ scratchName n ∉ taken ∧
      ∀ m < n, scratchName m ∈ taken := by
  unfold freshName
  rw [List.find?_map]
  cases hfind : (List.range (taken.length + 1)).find?
    ((fun name => !taken.contains name) ∘ scratchName) with
  | some n =>
    obtain ⟨hn, -, hbefore⟩ := List.find?_range_eq_some.1 hfind
    exact ⟨n, rfl, by simpa using hn, fun m hm => by simpa using hbefore m hm⟩
  | none =>
    -- There are more scratch names than taken ones.
    have hall : (List.range (taken.length + 1)).map scratchName ⊆ taken := by
      intro name hname
      obtain ⟨n, hn, rfl⟩ := List.mem_map.1 hname
      simpa using List.find?_eq_none.1 hfind n hn
    have hnodup : ((List.range (taken.length + 1)).map scratchName).Nodup :=
      List.nodup_range.map fun n m h => scratchName_inj.1 h
    have hlength := hnodup.length_le_of_subset hall
    rw [List.length_map, List.length_range] at hlength
    omega

theorem freshName_congr {taken taken' : List String}
    (h : ∀ n, scratchName n ∈ taken ↔ scratchName n ∈ taken') :
    freshName taken = freshName taken' := by
  obtain ⟨n, heq, hfree, hbefore⟩ := freshName_eq taken
  obtain ⟨m, heq', hfree', hbefore'⟩ := freshName_eq taken'
  rw [heq, heq', scratchName_inj]
  rcases Nat.lt_trichotomy n m with hlt | rfl | hlt
  · exact absurd ((h n).2 (hbefore' n hlt)) hfree
  · rfl
  · exact absurd ((h m).1 (hbefore m hlt)) hfree'

end Rebadge.Disk
