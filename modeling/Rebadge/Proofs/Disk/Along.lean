import Rebadge.Proofs.Disk.Operations
import Rebadge.Proofs.Path
import Rebadge.Proofs.Tree.Ways

/-!
# Paths along names

A path leads along names if its first pieces lead to a directory and the names are the next ones. It
arrives at their location if all above it are directories (`Along.locate`), and nowhere if one of
these is missing (`Along.locate_missing`). The paths above it lead along fewer names
(`Along.parent?`), and those of its first pieces to directories (`isDir_of_leading`).
-/

namespace Rebadge.Disk

open Rebadge.Path (IsPlain IsBase IsLeading)
open Rebadge.Tree (IsName IsDirs)

variable {d : Disk} {path q : String} {l : Location} {front names tail : List String}
  {name : String}

/-! ## Paths of first pieces -/

theorem Fits.leading (h : Fits path) (hq : IsLeading (Text.split path '/') (Path.isAbsolute path) q)
    (hne : q ≠ "") : Fits q := by
  rcases hq with hempty | rfl | ⟨-, rest, hrest⟩
  · exact absurd hempty hne
  · decide
  by_cases hnil : rest = []
  · rw [hnil, List.append_nil] at hrest
    rwa [Path.eq_of_split hrest]
  have hpath : path = q ++ ("/" ++ "/".intercalate rest) := by
    rw [← Text.intercalate_split path, ← hrest,
      Text.intercalate_append (Text.split_ne_nil q '/') hnil,
      Text.intercalate_split, String.append_assoc]
  refine ⟨?_, hne, ?_, fun p hp => h.names p (hrest ▸ List.mem_append_left rest hp)⟩
  · have hnul := h.nul
    unfold Text.hasChar at hnul ⊢
    rw [hpath, String.toList_append, List.contains_eq_mem, decide_eq_false_iff_not,
      List.mem_append, not_or] at hnul
    rw [List.contains_eq_mem, decide_eq_false_iff_not]
    exact hnul.1
  · have hsize := h.size_lt
    rw [hpath, String.utf8ByteSize_append] at hsize
    omega

theorem isDir_of_leading (hq : IsLeading front (Path.isAbsolute path) q) (hfits : Fits q)
    (hwalk : d.tree.walk true Tree.maxLinks (d.startOf path) front = .ok l)
    (hl : ∃ m, d.tree.get? l = some (.dir m)) :
    d.isDir q = true := by
  rcases hq with hempty | rfl | ⟨habs, rest, hrest⟩
  · exact absurd hempty hfits.ne_empty
  · have hroot : d.tree.get? [] = some (.dir 0o755) := rfl
    refine isDir_of_locate (k := []) ?_ hroot
    rw [locate_eq hfits, show d.startOf "/" = [] from rfl, show Text.split "/" '/' = ["", ""]
      from rfl, Tree.walk_eq, Tree.trail_empty hroot (by simp)]
    rfl
  · rw [← hrest] at hwalk
    obtain ⟨k, hk, m, hdir⟩ := Tree.walk_left_dir hwalk hl
    refine isDir_of_locate (k := k) ?_ hdir
    rw [locate_eq hfits, startOf_of_isAbsolute habs, hk]
    rfl

/-! ## Along names -/

/-- The path leads to a directory and along names from there, with slashes behind them or not. -/
structure Along (d : Disk) (path : String) (l : Location) (names tail : List String) : Prop where
  fits : Fits path
  plain : ∀ p ∈ names, IsPlain p
  slashes : ∀ p ∈ tail, p = ""
  dir : ∃ m, d.tree.get? l = some (.dir m)
  front : ∃ front, Text.split path '/' = front ++ (names ++ tail) ∧
    d.tree.walk true Tree.maxLinks (d.startOf path) front = .ok l

theorem Along.isName (h : d.Along path l names tail) : ∀ p ∈ names, IsName p := by
  intro p hp
  obtain ⟨front, hsplit, -⟩ := h.front
  exact ⟨(h.plain p hp).ne_empty, (h.plain p hp).ne_current, (h.plain p hp).ne_parent,
    h.fits.names p (by simp [hsplit, hp])⟩

theorem Along.length_le (h : d.Along path l names tail) : names.length ≤ path.length := by
  obtain ⟨front, hsplit, -⟩ := h.front
  have hjoin := Chars.length_filter_le_join '/' (Chars.split '/' path.toList)
  rw [Chars.join_split, String.length_toList, Text.split_chars, hsplit] at hjoin
  have hnames : (names.map String.toList).filter (· ≠ []) = names.map String.toList := by
    rw [List.filter_eq_self]
    intro p hp
    obtain ⟨name, hname, rfl⟩ := List.mem_map.1 hp
    simpa using (h.plain name hname).ne_empty
  rw [List.map_append, List.map_append, List.filter_append, List.filter_append,
    hnames, List.length_append, List.length_append, List.length_map] at hjoin
  omega

theorem Along.walk (h : d.Along path l names tail) (hne : names ++ tail ≠ []) (f : Bool) :
    ∃ b, d.locate path f = (d.tree.walk f b l (names ++ tail)).mapError .os := by
  obtain ⟨front, hsplit, hwalk⟩ := h.front
  obtain ⟨m, hdir⟩ := h.dir
  obtain ⟨b, hb⟩ := Tree.walk_append hdir hwalk f hne
  exact ⟨b, by rw [locate_eq h.fits, hsplit, hb]⟩

theorem Along.endsInSlash (h : d.Along path l (names ++ [name]) []) :
    Path.endsInSlash path = false := by
  obtain ⟨front, hsplit, -⟩ := h.front
  rw [List.append_nil, ← List.append_assoc] at hsplit
  have hslash := Path.endsInSlash_base (Path.isBase_split hsplit (h.plain name (by simp)))
  rwa [Text.intercalate_split] at hslash

theorem Along.extends {d' : Disk} (h : d.Along path l names tail)
    (hext : Tree.Extends d.tree d'.tree) (hcwd : d'.cwd = d.cwd) : d'.Along path l names tail := by
  obtain ⟨front, hsplit, hwalk⟩ := h.front
  obtain ⟨m, hdir⟩ := h.dir
  refine ⟨h.fits, h.plain, h.slashes, hext.dir hdir, front, hsplit, ?_⟩
  rw [startOf_of_cwd hcwd]
  exact Tree.walk_extends hext hwalk (by simp [hdir])

/-- **Arrival.** All above the location are directories, and nothing there stops the path. -/
theorem Along.locate (h : d.Along path l (names ++ [name]) tail) (hdirs : IsDirs d.tree l names)
    (hnode : d.tree.get? (l ++ names ++ [name]) = none ∨
      (∃ m, d.tree.get? (l ++ names ++ [name]) = some (.dir m)) ∨
      tail = [] ∧ ∀ target, d.tree.get? (l ++ names ++ [name]) ≠ some (.link target)) (f : Bool) :
    d.locate path f = .ok (l ++ names ++ [name]) := by
  obtain ⟨b, hlocate⟩ := h.walk (by simp) f
  rw [hlocate, List.append_assoc, List.singleton_append,
    Tree.walk_along hdirs h.isName h.slashes hnode]
  rfl

/-- **No arrival.** A directory above the location is missing. -/
theorem Along.locate_missing {r : List String} (h : d.Along path l (names ++ name :: r) tail)
    (hr : r ≠ []) (hdirs : IsDirs d.tree l names)
    (hnone : d.tree.get? (l ++ names ++ [name]) = none) (f : Bool) :
    d.locate path f = .error (.os .notFound) := by
  obtain ⟨b, hlocate⟩ := h.walk (by simp) f
  have hall : (r ++ tail).all (· == "") = false := by
    rw [List.all_eq_false]
    have hlast := h.plain (r.getLast hr) (by simp [List.getLast_mem hr])
    exact ⟨r.getLast hr,
      List.mem_append_left _ (List.getLast_mem hr), by simpa using hlast.ne_empty⟩
  rw [hlocate, List.append_assoc, List.cons_append,
    Tree.walk_missing hdirs (fun p hp => h.isName p ?_) hnone hall]
  · rfl
  · rw [List.append_cons]
    exact List.mem_append_left r hp

/-- **The path above** leads along the names but the last one. If that was the only one, it leads to
a directory. -/
theorem Along.parent? (h : d.Along path l (names ++ [name]) tail) :
    ∃ parent, Path.parent? path = some parent ∧
    (d.Along parent l names [] ∧ names ≠ [] ∨ names = [] ∧
      (parent = "" ∨ d.isDir parent = true)) := by
  obtain ⟨front, hsplit, hwalk⟩ := h.front
  have hlast := h.plain name (by simp)
  have hidle : ∀ q ∈ tail, Path.isIdle q = true := fun q hq => by
    rw [h.slashes q hq]
    rfl
  have hpieces : Text.split path '/' = (front ++ names) ++ name :: tail := by
    rw [hsplit]
    simp
  have hpre : front ++ names <+: Text.split path '/' := hpieces ▸ List.prefix_append _ _
  have hleading := Path.isLeading_keptText hpre
  refine ⟨_, Path.parent?_of_split hpieces hlast hidle, ?_⟩
  by_cases hnil : names = []
  · subst hnil
    rw [List.append_nil] at hpre hleading ⊢
    by_cases hempty : Path.keptText (Path.isAbsolute path) front = ""
    · exact Or.inr ⟨rfl, Or.inl hempty⟩
    · exact Or.inr ⟨rfl,
      Or.inr (isDir_of_leading hleading (h.fits.leading (hleading.mono hpre) hempty) hwalk h.dir)⟩
  · have hslash : ∀ p ∈ Text.split path '/', '/' ∉ p.toList :=
      fun p hp => Text.not_mem_of_mem_split hp
    have hbase : IsBase (front ++ names) := by
      refine ⟨fun p hp => hslash p (hpre.subset hp), front ++ names.dropLast,
        names.getLast hnil, ?_, ?_⟩
      · rw [List.append_assoc, List.dropLast_concat_getLast]
      · have hname := h.plain _ (List.mem_append_left _ (List.getLast_mem hnil))
        exact ⟨hname.ne_empty, hname.ne_current⟩
    have habs : Path.isAbsolute ("/".intercalate (front ++ names)) = Path.isAbsolute path := by
      rw [← Text.intercalate_split path, hpieces, Path.isAbsolute_append hbase]
      exact fun p hp => hslash p (hpieces ▸ List.mem_append_right _ hp)
    rw [Path.keptText_base _ hbase] at hleading ⊢
    have hfits := h.fits.leading (hleading.mono hpre) (Path.intercalate_ne_empty hbase)
    refine Or.inl ⟨⟨hfits, fun p hp => h.plain p (by simp [hp]), by simp, h.dir, front,
      by rw [Path.split_base hbase, List.append_nil], ?_⟩, hnil⟩
    rw [startOf_of_isAbsolute habs, hwalk]

end Rebadge.Disk
