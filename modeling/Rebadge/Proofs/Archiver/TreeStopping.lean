import Rebadge.Proofs.Archiver.TreeAdding
import Rebadge.Proofs.Wheel.DistInfo

/-!
# How far a tree is added

Adding a tree makes an entry for each node in turn. It stops at a name that the archive has already,
or at a file whose path is too long; such a file has an empty entry by then (`adds_treeAdded`). The
entries of a directory all have different names that begin with its own (`nodup_nodeEntries`), so if
the archive has no such names, only a path can stop it.
-/

namespace Rebadge.Archiver.Native

open Disk (Scratch Fits)
open Rebadge.Path (IsPlain IsBase)

variable {d : Disk} {base : List String} {l : Location} {new : String}
  {entries : List (Zip.Entry Content)} {nodes : List (Location × Node)} {p : Location × Node}
  {r : Location} {n : Node}

/-! ## The entries of nodes -/

theorem name_nodeEntry (new : String) (p : Location × Node) :
    (nodeEntry new p).name = "/".intercalate (new :: p.1) ∨
    (nodeEntry new p).name = "/".intercalate (new :: p.1) ++ "/" := by
  have hdirectory : ∀ name, directoryName name = name ∨ directoryName name = name ++ "/" := by
    intro name
    unfold directoryName
    split
    · exact Or.inl rfl
    · exact Or.inr rfl
  obtain ⟨r, n⟩ := p
  cases n with
  | file c m => exact Or.inl rfl
  | dir m => exact hdirectory _
  | link target => exact hdirectory _

theorem entryPath_nodeEntry (hn : ∀ q ∈ new :: p.1, IsPlain q) :
    entryPath (nodeEntry new p).name = new :: p.1 :=
  entryPath_intercalate hn (List.cons_ne_nil _ _) (name_nodeEntry new p)

theorem hasPrefix_of_ne_nil (new : String) (hp : p.1 ≠ []) :
    Text.hasPrefix (nodeEntry new p).name (new ++ "/") = true := by
  have hpath : ("/".intercalate (new :: p.1)).toList = (new ++ "/").toList ++
      ("/".intercalate p.1).toList := by
    rw [← List.singleton_append, Text.intercalate_append (List.cons_ne_nil _ _) hp,
      String.intercalate_singleton, String.toList_append]
  rw [Text.hasPrefix_iff]
  rcases name_nodeEntry new p with hname | hname
  · exact ⟨_, by rw [hname, hpath]⟩
  · exact ⟨_, by rw [hname, String.toList_append, hpath, List.append_assoc]⟩

theorem hasPrefix_self (new : String) : Text.hasPrefix (new ++ "/") (new ++ "/") = true :=
  Text.hasPrefix_iff.2 ⟨[], (List.append_nil _).symm⟩

theorem name_nodeEntry_below (new : String) (p : Location × Node) :
    (nodeEntry new p).name = new ∨ Text.hasPrefix (nodeEntry new p).name (new ++ "/") = true := by
  by_cases hp : p.1 = []
  · have hname := name_nodeEntry new p
    rw [hp, String.intercalate_singleton] at hname
    refine hname.imp_right fun heq => ?_
    rw [heq]
    exact hasPrefix_self new
  · exact Or.inr (hasPrefix_of_ne_nil new hp)

theorem hasPrefix_nodeEntry (hnew : IsFileName new) (hp : p.1 ≠ [] ∨ p.2.isDir = true) :
    Text.hasPrefix (nodeEntry new p).name (new ++ "/") = true := by
  by_cases hr : p.1 = []
  · obtain ⟨r, n⟩ := p
    obtain rfl : r = [] := hr
    cases n with
    | file c m => exact absurd hp (by simp [Node.isDir])
    | link target => exact absurd hp (by simp [Node.isDir])
    | dir m =>
      show Text.hasPrefix (directoryName ("/".intercalate [new])) (new ++ "/") = true
      rw [String.intercalate_singleton, directoryName, hnew.file]
      exact hasPrefix_self new
  · exact hasPrefix_of_ne_nil new hr

/-- **A directory** can be added to an archive that has no names below it. -/
theorem nodup_nodeEntries (hnew : IsFileName new) (hn : ∀ p ∈ nodes, ∀ q ∈ new :: p.1, IsPlain q)
    (hnodup : (nodes.map Prod.fst).Nodup) (hdirs : ∀ p ∈ nodes, p.1 ≠ [] ∨ p.2.isDir = true)
    (hentries : (Zip.names entries).Nodup)
    (hnone : ∀ name ∈ Zip.names entries, Text.hasPrefix name (new ++ "/") = false) :
    (Zip.names (entries ++ nodes.map (nodeEntry new))).Nodup := by
  rw [Zip.names_append, List.nodup_append]
  refine ⟨hentries, nodup_names_map (fun p hp => entryPath_nodeEntry (hn p hp)) hnodup,
    fun a ha b hb => ?_⟩
  rintro rfl
  obtain ⟨e, he, rfl⟩ := List.mem_map.1 hb
  obtain ⟨p, hp, rfl⟩ := List.mem_map.1 he
  have hbelow := hnone _ ha
  rw [hasPrefix_nodeEntry hnew (hdirs p hp)] at hbelow
  exact absurd hbelow (by simp)

/-! ## Where adding stops -/

/-- **Adding a tree** of a scratch directory. -/
theorem adds_treeAdded (h : Scratch d base l)
    (hplain : ∀ r, d.tree.get? (l ++ new :: r) ≠ none → ∀ q ∈ new :: r, IsPlain q)
    (hsome : d.tree.get? (l ++ [new]) = some n) (hfits : Fits ("/".intercalate (base ++ [new])))
    (archive : String) (hnodup : (Zip.names entries).Nodup) :
    Adds base new entries (d.tree.below (l ++ [new]))
    (treeAdded d archive ("/".intercalate base) new entries) := by
  have hnew : IsPlain new := hplain [] (by simp [hsome]) new (List.mem_cons_self ..)
  unfold treeAdded
  rw [Path.join_plain h.isBase hnew.slash, itemsFrom_below h hsome hplain hfits]
  refine adds_addItems h archive (fun p hp => ?_) hnodup
  have hget := (Tree.mem_below (h.nodup_below [new]) (by simp)).1 hp
  rw [List.append_assoc, List.singleton_append] at hget
  exact ⟨hplain p.1 (by simp [hget]), hget⟩

end Rebadge.Archiver.Native
