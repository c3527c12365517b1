import Rebadge.Proofs.Disk.Along

/-!
# A scratch directory

Below a directory that its own path leads to and that holds no links, paths are locations
(`Scratch.locate_append`), and the directory stays such a one whatever is put into it
(`Scratch.put`).
-/

namespace Rebadge.Disk

open Rebadge.Path (IsPlain IsBase)
open Rebadge.Tree (IsName IsDirs Extends Around makeWay)

variable {d : Disk} {base : List String} {l : Location} {names : List String} {name : String}

/-! ## The directory -/

/-- The path of the pieces leads to a directory without links, in which every node lies in a
directory and has a location of its own. -/
structure Scratch (d : Disk) (base : List String) (l : Location) : Prop where
  isBase : IsBase base
  /-- The path leads there whatever is in the directory. -/
  reach : ∀ t, Around l d.tree t → ∀ follow,
    t.walk follow Tree.maxLinks (d.startOf ("/".intercalate base)) base = .ok l
  dir : ∃ m, d.tree.get? l = some (.dir m)
  noLink : ∀ r target, d.tree.get? (l ++ r) ≠ some (.link target)
  closed : ∀ q r, r ≠ [] → d.tree.get? (l ++ q ++ r) ≠ none →
    ∃ m, d.tree.get? (l ++ q) = some (.dir m)
  nodup : (d.tree.keys.filter l.isPrefixOf).Nodup

/-- Names below the directory that a path can end in. -/
structure Names (base names : List String) : Prop where
  plain : ∀ p ∈ names, IsPlain p
  fits : Fits ("/".intercalate (base ++ names))

theorem Fits.left {ps qs : List String} (hslash : ∀ p ∈ ps ++ qs, '/' ∉ p.toList) (hps : IsBase ps)
    (h : Fits ("/".intercalate (ps ++ qs))) : Fits ("/".intercalate ps) := by
  refine h.leading (Or.inr
    (Or.inr ⟨(Path.isAbsolute_append hps fun p hp => hslash p (by simp [hp])).symm, ?_⟩))
    (Path.intercalate_ne_empty hps)
  rw [Path.split_base hps, Text.split_intercalate (by simp [hps.ne_nil]) hslash]
  exact List.prefix_append _ _

theorem Names.left {q r : List String} (hb : IsBase base) (h : Names base (q ++ r)) :
    Names base q := by
  have hplain : ∀ p ∈ q, IsPlain p := fun p hp => h.plain p (List.mem_append_left _ hp)
  have hall := hb.append h.plain
  have hfits := h.fits
  rw [← List.append_assoc] at hfits hall
  exact ⟨hplain, hfits.left hall.slash (hb.append hplain)⟩

theorem startOf_append (h : IsBase base) {more : List String} (hmore : ∀ p ∈ more, '/' ∉ p.toList)
    (d : Disk) : d.startOf ("/".intercalate (base ++ more)) = d.startOf ("/".intercalate base) :=
  startOf_of_isAbsolute (Path.isAbsolute_append h hmore) d

theorem Scratch.arrives (h : Scratch d base l) (follow : Bool) :
    d.tree.walk follow Tree.maxLinks (d.startOf ("/".intercalate base)) base = .ok l :=
  h.reach d.tree (.refl h.dir) follow

theorem Scratch.walk (h : Scratch d base l) (follow : Bool) {more : List String}
    (hmore : more ≠ []) :
    ∃ budget, d.tree.walk follow Tree.maxLinks (d.startOf ("/".intercalate base)) (base ++ more) =
      d.tree.walk follow budget l more := by
  obtain ⟨m, hdir⟩ := h.dir
  exact Tree.walk_append hdir (h.arrives true) follow hmore

theorem slash_append (h : IsBase base) {more : List String} (hmore : ∀ p ∈ more, '/' ∉ p.toList) :
    ∀ p ∈ base ++ more, '/' ∉ p.toList := by
  intro p hp
  rcases List.mem_append.1 hp with hp | hp
  · exact h.slash p hp
  · exact hmore p hp

/-- A path through the directory leads where its last pieces lead from there. -/
theorem Scratch.locate (h : Scratch d base l) {more : List String} (hne : more ≠ [])
    (hmore : ∀ p ∈ more, '/' ∉ p.toList) (hfits : Fits ("/".intercalate (base ++ more)))
    (follow : Bool) :
    ∃ budget, d.locate ("/".intercalate (base ++ more)) follow =
      (d.tree.walk follow budget l more).mapError .os := by
  obtain ⟨budget, hwalk⟩ := h.walk follow hne
  refine ⟨budget, ?_⟩
  rw [locate_eq hfits, Text.split_intercalate (by simp [hne]) (slash_append h.isBase hmore),
    startOf_append h.isBase hmore, hwalk]

theorem Scratch.along (h : Scratch d base l) {tail : List String} (hplain : ∀ p ∈ names, IsPlain p)
    (htail : ∀ p ∈ tail, p = "") (hfits : Fits ("/".intercalate (base ++ (names ++ tail)))) :
    d.Along ("/".intercalate (base ++ (names ++ tail))) l names tail := by
  have hslash : ∀ p ∈ names ++ tail, '/' ∉ p.toList := by
    intro p hp
    rcases List.mem_append.1 hp with hp | hp
    · exact (hplain p hp).slash
    · simp [htail p hp]
  refine ⟨hfits, hplain, htail, h.dir, base, ?_, ?_⟩
  · rw [Text.split_intercalate (by simp [h.isBase.ne_nil]) (slash_append h.isBase hslash)]
  · rw [startOf_append h.isBase hslash]
    exact h.arrives true

theorem Scratch.along_names (h : Scratch d base l) (hn : Names base names) :
    d.Along ("/".intercalate (base ++ names)) l names [] := by
  have hfits := hn.fits
  rw [← List.append_nil names] at hfits
  have halong := h.along hn.plain (by simp) hfits
  rwa [List.append_nil] at halong

/-- **Paths are locations.** A path below the directory leads to its location, if all above are
directories. -/
theorem Scratch.locate_append (h : Scratch d base l) (hn : Names base (names ++ [name]))
    (hdirs : IsDirs d.tree l names) (follow : Bool) :
    d.locate ("/".intercalate (base ++ (names ++ [name]))) follow = .ok (l ++ names ++ [name]) := by
  refine (h.along_names hn).locate hdirs (Or.inr (Or.inr ⟨rfl, fun target => ?_⟩)) follow
  rw [List.append_assoc]
  exact h.noLink _ target

theorem Scratch.locate_self (h : Scratch d base l) (hfits : Fits ("/".intercalate base))
    (follow : Bool) : d.locate ("/".intercalate base) follow = .ok l := by
  rw [locate_eq hfits, Path.split_base h.isBase, h.arrives follow]
  rfl

/-! ## Looking -/

theorem Scratch.isDirs_nil (h : Scratch d base l) : IsDirs d.tree l [] := by
  intro q r hqr
  rw [(List.append_eq_nil_iff.1 hqr.symm).1, List.append_nil]
  exact h.dir

theorem Scratch.locate_name (h : Scratch d base l) (hname : IsPlain name)
    (hfits : Fits ("/".intercalate (base ++ [name]))) (follow : Bool) :
    d.locate ("/".intercalate (base ++ [name])) follow = .ok (l ++ [name]) := by
  have hn : Names base ([] ++ [name]) := by
    rw [List.nil_append]
    exact ⟨by simpa using hname, hfits⟩
  have hlocate := h.locate_append hn h.isDirs_nil follow
  rwa [List.nil_append, List.append_nil] at hlocate

theorem Scratch.isDirs (h : Scratch d base l) (hsome : d.tree.get? (l ++ names ++ [name]) ≠ none) :
    IsDirs d.tree l names := by
  rintro q r rfl
  refine h.closed q (r ++ [name]) (by simp) ?_
  simpa only [List.append_assoc] using hsome

theorem Scratch.nodup_below (h : Scratch d base l) (r : Location) :
    (d.tree.keys.filter (l ++ r).isPrefixOf).Nodup :=
  Tree.nodup_keys_append h.nodup r

/-- **What is there** is found by its path. -/
theorem Scratch.find_append (h : Scratch d base l) (hn : Names base names)
    (hne : names ≠ []) {n : Node} (hget : d.tree.get? (l ++ names) = some n) (follow : Bool) :
    d.find ("/".intercalate (base ++ names)) follow = .ok (l ++ names, n) := by
  obtain ⟨front, name, rfl⟩ := (List.eq_nil_or_concat' names).resolve_left hne
  refine find_eq ?_ hget
  rw [← List.append_assoc l] at hget ⊢
  exact h.locate_append hn (h.isDirs (by rw [hget]; exact Option.some_ne_none _)) follow

theorem Scratch.find_dirs (h : Scratch d base l) (hn : Names base names)
    (hdirs : IsDirs d.tree l names) (follow : Bool) :
    ∃ m, d.find ("/".intercalate (base ++ names)) follow = .ok (l ++ names, .dir m) := by
  obtain ⟨m, hm⟩ := hdirs.self
  refine ⟨m, ?_⟩
  by_cases hne : names = []
  · subst hne
    have hfits := hn.fits
    rw [List.append_nil] at hfits hm ⊢
    rw [List.append_nil]
    exact find_eq (h.locate_self hfits follow) hm
  · exact h.find_append hn hne hm follow

theorem Scratch.find_iff (h : Scratch d base l) (hn : ∀ p ∈ names, IsPlain p)
    (hne : names ≠ []) {n : Node} (hget : d.tree.get? (l ++ names) = some n) {follow : Bool}
    {found : Location × Node} :
    d.find ("/".intercalate (base ++ names)) follow = .ok found ↔
      Fits ("/".intercalate (base ++ names)) ∧ found = (l ++ names, n) := by
  constructor
  · intro hfind
    have hfits := (fits_of_locate (find_ok.1 hfind).1).1
    rw [h.find_append ⟨hn, hfits⟩ hne hget, Except.ok.injEq] at hfind
    exact ⟨hfits, hfind.symm⟩
  · rintro ⟨hfits, rfl⟩
    exact h.find_append ⟨hn, hfits⟩ hne hget follow

theorem Scratch.read_ok (h : Scratch d base l) (hn : ∀ p ∈ names, IsPlain p) (hne : names ≠ [])
    {c : Content} {m : Nat} (hfile : d.tree.get? (l ++ names) = some (.file c m)) (c' : Content) :
    d.read ("/".intercalate (base ++ names)) = .ok c' ↔ Fits ("/".intercalate (base ++ names)) ∧
    c' = c := by
  simp only [Disk.read_ok, h.find_iff hn hne hfile]
  constructor
  · rintro ⟨k, mode, hfits, hfound⟩
    cases hfound
    exact ⟨hfits, rfl⟩
  · rintro ⟨hfits, rfl⟩
    exact ⟨_, _, hfits, rfl⟩

theorem Scratch.list_ok (h : Scratch d base l) (hn : ∀ p ∈ names, IsPlain p)
    (hne : names ≠ []) {m : Nat} (hdir : d.tree.get? (l ++ names) = some (.dir m))
    (found : List String) :
    d.list ("/".intercalate (base ++ names)) = .ok found ↔
      Fits ("/".intercalate (base ++ names)) ∧ found = d.tree.names (l ++ names) := by
  simp only [Disk.list_ok, h.find_iff hn hne hdir]
  constructor
  · rintro ⟨k, mode, ⟨hfits, hfound⟩, rfl⟩
    cases hfound
    exact ⟨hfits, rfl⟩
  · rintro ⟨hfits, rfl⟩
    exact ⟨_, _, ⟨hfits, rfl⟩, rfl⟩

/-! ## Changing -/

theorem Scratch.put (h : Scratch d base l) (hdirs : IsDirs d.tree l names)
    (hnone : d.tree.get? (l ++ names ++ [name]) = none) {n : Node}
    (hn : ∀ target, n ≠ .link target) :
    Scratch (d.put (l ++ names ++ [name]) n) base l := by
  have hne : l ++ names ++ [name] ≠ [] := by simp
  have hext : Extends d.tree (d.tree.put (l ++ names ++ [name]) n) := Tree.extends_put hne hnone n
  have hget : ∀ k, (d.tree.put (l ++ names ++ [name]) n).get? k =
      if k = l ++ names ++ [name] then some n else d.tree.get? k := Tree.get?_put hne n
  obtain ⟨m, hdir⟩ := h.dir
  refine ⟨h.isBase, fun t ht => h.reach t ((hext.around h.dir).trans ht),
    hext.dir hdir, fun r target => ?_, fun q r hr hsome => ?_, ?_⟩
  · show (d.tree.put _ n).get? _ ≠ _
    rw [hget]
    split
    · simpa using hn target
    · exact h.noLink r target
  · change (d.tree.put _ n).get? _ ≠ none at hsome
    show ∃ m, (d.tree.put _ n).get? _ = _
    have hold : ∃ m, d.tree.get? (l ++ q) = some (.dir m) := by
      rw [hget] at hsome
      split at hsome
      · next heq =>
        -- The new node lies in a directory, so all above it are directories.
        rw [List.append_assoc, List.append_assoc, List.append_cancel_left_eq] at heq
        obtain ⟨r', hr'⟩ : ∃ r', names = q ++ r' := by
          rw [← List.dropLast_concat_getLast hr, ← List.append_assoc] at heq
          exact ⟨r.dropLast, (List.append_inj' heq rfl).1.symm⟩
        exact hdirs q r' hr'
      · exact h.closed q r hr hsome
    obtain ⟨m, hold⟩ := hold
    exact hext.dir hold
  · show ((d.tree.put _ n).keys.filter _).Nodup
    rw [Tree.keys_put, if_neg ((Tree.get?_eq_none_iff hne).1 hnone),
      List.filter_append, List.nodup_append]
    refine ⟨h.nodup, List.Pairwise.filter _ (by simp), fun a ha b hb => ?_⟩
    rintro rfl
    have hkey := (List.mem_filter.1 ha).1
    rw [List.mem_singleton.1 (List.mem_filter.1 hb).1] at hkey
    exact (Tree.get?_eq_none_iff hne).1 hnone hkey

/-! ## Making one -/

theorem isPlain_freshName (taken : List String) : IsPlain (freshName taken) := by
  have hscratch : ∀ n, IsPlain (scratchName n) := by
    intro n
    have hlist : (scratchName n).toList = "scratch".toList ++ (toString n).toList :=
      String.toList_append ..
    refine ⟨?_, ?_, ?_, ?_⟩
    · intro h
      rw [h] at hlist
      exact absurd hlist (by simp)
    · intro h
      rw [h] at hlist
      exact absurd hlist (by simp)
    · intro h
      rw [h] at hlist
      exact absurd hlist (by simp)
    · rw [hlist, List.mem_append, not_or]
      refine ⟨by decide, fun hmem => ?_⟩
      rw [Nat.toString_eq_repr, Nat.toList_repr] at hmem
      exact absurd (Nat.isDigit_of_mem_toDigits (by omega) (by omega) hmem) (by decide)
  unfold freshName
  cases hfind : ((List.range (taken.length + 1)).map scratchName).find? fun name =>
    !taken.contains name with
  | none => exact hscratch 0
  | some name =>
    obtain ⟨n, -, rfl⟩ := List.mem_map.1 (List.mem_of_find?_eq_some hfind)
    exact hscratch n

theorem get?_append_of_free (hwf : d.tree.WellFormed) (hfree : d.tree.get? l = none)
    (r : Location) : d.tree.get? (l ++ r) = none := by
  by_cases hr : r = []
  · rwa [hr, List.append_nil]
  · refine Classical.byContradiction fun hsome => ?_
    obtain ⟨m, hm⟩ := hwf l r hr hsome
    rw [hfree] at hm
    exact absurd hm (by simp)

theorem get?_new_below (hwf : d.tree.WellFormed) (hfree : d.tree.get? l = none) (m : Nat)
    {r : Location} (hr : r ≠ []) : (d.tree.put l (.dir m)).get? (l ++ r) = none := by
  rw [Tree.get?_put (Tree.ne_nil_of_none hfree), if_neg (by simpa using hr)]
  exact get?_append_of_free hwf hfree r

theorem extends_around_new (hwf : d.tree.WellFormed) (hfree : d.tree.get? l = none) {m : Nat}
    {t : Tree} (ht : Around l (d.tree.put l (.dir m)) t) : Extends (d.tree.put l (.dir m)) t := by
  intro k n hn
  by_cases hk : l <+: k
  · obtain ⟨r, rfl⟩ := hk
    by_cases hr : r = []
    · rw [hr, List.append_nil, Tree.get?_put (Tree.ne_nil_of_none hfree), if_pos rfl,
        Option.some.injEq] at hn
      obtain ⟨m, hm⟩ := ht.dir
      rw [hr, List.append_nil, ← hn]
      exact ⟨_, hm, .dir _ _⟩
    · rw [get?_new_below hwf hfree m hr] at hn
      exact absurd hn (by simp)
  · exact ht.others k n hk hn

theorem nodup_keys_new (hwf : d.tree.WellFormed) (hfree : d.tree.get? l = none) (n : Node) :
    ((d.tree.put l n).keys.filter l.isPrefixOf).Nodup := by
  have hne := Tree.ne_nil_of_none hfree
  have hnone : d.tree.keys.filter l.isPrefixOf = [] := by
    rw [List.filter_eq_nil_iff]
    intro k hk hpre
    obtain ⟨r, rfl⟩ := List.isPrefixOf_iff_prefix.1 hpre
    exact (Tree.get?_eq_none_iff (by simp [hne])).1 (get?_append_of_free hwf hfree r) hk
  rw [Tree.keys_put, if_neg ((Tree.get?_eq_none_iff hne).1 hfree), List.filter_append,
    hnone, List.nil_append]
  exact List.Pairwise.filter _ (by simp)

/-- **A new directory** is a scratch directory. -/
theorem scratch_of_locate (hbase : IsBase base) (hwf : d.tree.WellFormed)
    (hlocate : d.locate ("/".intercalate base) false = .ok l) (hfree : d.tree.get? l = none) :
    Scratch (d.put l (.dir newDirMode)) base l := by
  have hget : ∀ k, (d.tree.put l (.dir newDirMode)).get? k = if k = l then some (.dir newDirMode)
      else d.tree.get? k :=
    Tree.get?_put (Tree.ne_nil_of_none hfree) _
  have hself : (d.tree.put l (.dir newDirMode)).get? l = some (.dir newDirMode) := by
    rw [hget, if_pos rfl]
  have hbelow : ∀ r, r ≠ [] → (d.tree.put l (.dir newDirMode)).get? (l ++ r) = none := fun _ hr =>
    get?_new_below hwf hfree newDirMode hr
  have hrewrites : Tree.Rewrites l d.tree (d.tree.put l (.dir newDirMode)) := by
    refine ⟨fun k n hk hn => ⟨n, ?_, .refl n⟩, Or.inr ⟨hfree, _, hself⟩⟩
    rw [hget, if_neg hk, hn]
  refine ⟨hbase, fun t ht follow => ?_, ⟨_, hself⟩, fun r target => ?_, fun q r hr hsome => ?_,
    nodup_keys_new hwf hfree _⟩
  · have hwalk := (fits_of_locate hlocate).2
    rw [Path.split_base hbase] at hwalk
    rcases Tree.walk_rewritten hrewrites hwalk follow with hnew | ⟨hnot, -⟩
    · exact Tree.walk_extends (extends_around_new hwf hfree ht) hnew (by simp [hself])
    · exact absurd hself (hnot _)
  · show (d.tree.put l _).get? _ ≠ _
    by_cases hr : r = []
    · rw [hr, List.append_nil, hself]
      simp
    · rw [hbelow r hr]
      simp
  · change (d.tree.put l _).get? _ ≠ none at hsome
    rw [List.append_assoc, hbelow (q ++ r) (by simp [hr])] at hsome
    exact absurd rfl hsome

end Rebadge.Disk
