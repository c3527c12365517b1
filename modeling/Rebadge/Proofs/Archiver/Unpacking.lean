import Rebadge.Proofs.Archiver.Editing
import Rebadge.Proofs.Archiver.Extraction
import Rebadge.Proofs.Archiver.TreeAdding
import Mathlib.Data.List.Dedup
import Mathlib.Data.List.Infix

/-!
# An archive beside its unpacked entries

While entries are unpacked in a scratch directory, the archive can be edited, and neither disturbs
the other (`Unpacked`). The nodes that the entries stand for can be listed from the entries alone
(`mem_treeNodes`).
-/

namespace Rebadge.Archiver.Native

open Disk (Scratch Fits newDirMode newFileMode)
open Rebadge.Path (IsBase)

variable {d₀ d : Disk} {path : String} {la l : Location} {base : List String}
  {es entries : List (Zip.Entry Content)}

/-- A disk with an archive and with a scratch directory that holds exactly what entries stand
for. -/
structure Unpacked (d₀ d : Disk) (path : String) (la : Location)
    (entries : List (Zip.Entry Content)) (base : List String) (l : Location)
    (es : List (Zip.Entry Content)) : Prop where
  stored : Stored d₀ d path la entries
  scratch : Scratch d base l
  holds : ∀ r n, r ≠ [] → (d.tree.get? (l ++ r) = some n ↔ ∃ e ∈ es, Stands e r n)
  /-- The archive is not in the directory. -/
  apart : ¬ l <+: la
  /-- There was nothing before. -/
  free : ∀ r, d₀.tree.get? (l ++ r) = none

theorem Unpacked.not_below (h : Unpacked d₀ d path la entries base l es) {k : Location} {n : Node}
    (hn : d₀.tree.get? k = some n) : ¬ l <+: k := by
  rintro ⟨r, rfl⟩
  rw [h.free r] at hn
  exact absurd hn (by simp)

theorem unpacked_nil (hstored : Stored d₀ d path la entries) (hwf : d.tree.WellFormed)
    (hbase : IsBase base) (hlocate : d.locate ("/".intercalate base) false = .ok l)
    (hfree : d.tree.get? l = none) :
    Unpacked d₀ (d.put l (.dir newDirMode)) path la entries base l [] := by
  have hbelow := Disk.get?_append_of_free hwf hfree
  obtain ⟨mode, hfile⟩ := hstored.file
  have hne := Tree.ne_nil_of_none hfree
  have hget : ∀ k, (d.put l (.dir newDirMode)).tree.get? k = if k = l then some (.dir newDirMode)
      else d.tree.get? k :=
    Tree.get?_put hne _
  have hapart : ¬ l <+: la := by
    rintro ⟨r, rfl⟩
    rw [hbelow r] at hfile
    exact absurd hfile (by simp)
  have hfree₀ : ∀ r, d₀.tree.get? (l ++ r) = none := by
    intro r
    rw [Option.eq_none_iff_forall_ne_some]
    intro n hn
    have hla : l ++ r ≠ la := fun heq => hapart ⟨r, heq⟩
    have hsome := hstored.others _ n hla hn
    rw [hbelow r] at hsome
    exact absurd hsome (by simp)
  refine ⟨hstored.mono rfl ?_ fun k n _ hn => ?_, Disk.scratch_of_locate hbase hwf hlocate hfree,
    fun r n hr => ?_, hapart, hfree₀⟩
  · rw [hget, if_neg]
    rintro rfl
    exact hapart (List.prefix_refl _)
  · rw [hget, if_neg]
    rintro rfl
    have hnone := hfree₀ []
    rw [List.append_nil, hn] at hnone
    exact absurd hnone (by simp)
  · rw [hget, if_neg (by simpa using hr), hbelow r]
    simp

theorem Unpacked.extract (h : Unpacked d₀ d path la entries base l []) (hes : Extractable es) :
    Unpacked d₀ (allExtracted d l es) path la entries base l es := by
  have hextracted : Extracted d (allExtracted d l es) base l es :=
    Extracted.append ⟨h.scratch, h.holds, fun _ _ => rfl⟩ hes
  refine ⟨h.stored.mono rfl (hextracted.outside la h.apart) fun k n _ hn => ?_,
    hextracted.scratch, hextracted.holds, h.apart, h.free⟩
  exact hextracted.outside k (h.not_below hn)

theorem Unpacked.edit (h : Unpacked d₀ d path la entries base l es)
    {more : List (Zip.Entry Content)} (hmore : (Zip.names more).Nodup) (mode : Nat) :
    Unpacked d₀ (d.put la (.file (.zip more) mode)) path la more base l es := by
  obtain ⟨m, hfile⟩ := h.stored.file
  refine ⟨h.stored.put hmore mode, h.scratch.rewrite h.apart hfile,
    fun r n hr => ?_, h.apart, h.free⟩
  rw [Disk.get?_put_file hfile, if_neg fun heq => h.apart ⟨r, heq⟩]
  exact h.holds r n hr

/-! ## The nodes that entries stand for -/

/-- Below the first name of their paths: the directories on the way of entries. -/
def treeDirs (es : List (Zip.Entry Content)) : List Location :=
  (es.flatMap fun e => (entryDirs e.name).tail.inits).dedup

/-- The files. -/
def treeFiles (es : List (Zip.Entry Content)) : List (Location × Node) :=
  (es.filter fun e => !Path.endsInSlash e.name).map fun e =>
    ((entryPath e.name).tail, .file e.data newFileMode)

/-- All nodes below the first name. -/
def treeNodes (es : List (Zip.Entry Content)) : List (Location × Node) :=
  (treeDirs es).map (fun r => (r, .dir newDirMode)) ++ treeFiles es

/-- All entries lie in a directory of one name. -/
def Within (dir : String) (es : List (Zip.Entry Content)) : Prop :=
  ∀ e ∈ es, ∃ r, entryDirs e.name = dir :: r

variable {dir : String}

theorem Within.entryPath (h : Within dir es) {e : Zip.Entry Content} (he : e ∈ es) :
    ∃ r, Native.entryPath e.name = dir :: r := by
  obtain ⟨r, hr⟩ := h e he
  obtain ⟨s, hs⟩ := entryDirs_isPrefix e.name
  exact ⟨r ++ s, by rw [← hs, hr, List.cons_append]⟩

theorem Within.filePath (h : Within dir es) {e : Zip.Entry Content} (he : e ∈ es)
    (hslash : Path.endsInSlash e.name = false) :
    ∃ r, r ≠ [] ∧ Native.entryPath e.name = dir :: r := by
  obtain ⟨r, hr⟩ := h e he
  obtain ⟨last, hlast⟩ := entryDirs_of_not_slash hslash
  exact ⟨r ++ [last], by simp, by rw [hlast, hr, List.cons_append]⟩

theorem mem_treeDirs (h : Within dir es) {r : Location} :
    r ∈ treeDirs es ↔ ∃ e ∈ es, dir :: r <+: entryDirs e.name := by
  unfold treeDirs
  rw [List.mem_dedup, List.mem_flatMap]
  refine exists_congr fun e => and_congr_right fun he => ?_
  obtain ⟨s, hs⟩ := h e he
  rw [hs, List.tail_cons, List.mem_inits, List.cons_prefix_cons]
  simp

theorem mem_treeFiles (h : Within dir es) {r : Location} {n : Node} : (r, n) ∈ treeFiles es ↔
    ∃ e ∈ es, Path.endsInSlash e.name = false ∧ entryPath e.name = dir :: r ∧
      n = .file e.data newFileMode := by
  unfold treeFiles
  rw [List.mem_map]
  constructor
  · rintro ⟨e, he, heq⟩
    rw [List.mem_filter, Bool.not_eq_true'] at he
    obtain ⟨hr, hn⟩ := Prod.mk.inj heq
    obtain ⟨s, hs⟩ := h.entryPath he.1
    exact ⟨e, he.1, he.2, by rw [hs, ← hr, hs, List.tail_cons], hn.symm⟩
  · rintro ⟨e, he, hfile, hpath, rfl⟩
    exact ⟨e, List.mem_filter.2 ⟨he, by simpa using hfile⟩, by rw [hpath, List.tail_cons]⟩

theorem mem_treeNodes (h : Within dir es) {r : Location} {n : Node} :
    (r, n) ∈ treeNodes es ↔ ∃ e ∈ es, Stands e (dir :: r) n := by
  unfold treeNodes Stands
  rw [List.mem_append, mem_treeFiles h, List.mem_map]
  constructor
  · rintro (⟨r', hr', heq⟩ | ⟨e, he, hfile⟩)
    · obtain ⟨rfl, rfl⟩ := Prod.mk.inj heq
      obtain ⟨e, he, hpre⟩ := (mem_treeDirs h).1 hr'
      exact ⟨e, he, Or.inr ⟨rfl, hpre⟩⟩
    · exact ⟨e, he, Or.inl hfile⟩
  · rintro ⟨e, he, hfile | ⟨rfl, hpre⟩⟩
    · exact Or.inr ⟨e, he, hfile⟩
    · exact Or.inl ⟨r, (mem_treeDirs h).2 ⟨e, he, hpre⟩, rfl⟩

theorem nodup_treeNodes (h : Within dir es) (hes : Extractable es) :
    ((treeNodes es).map Prod.fst).Nodup := by
  unfold treeNodes
  rw [List.map_append, List.map_map, List.nodup_append]
  have hid : Prod.fst ∘ (fun r : Location => (r, Node.dir newDirMode)) = id := rfl
  rw [hid, List.map_id]
  refine ⟨List.nodup_dedup _, ?_, ?_⟩
  · unfold treeFiles
    rw [List.map_map]
    have hnames : (((es.filter fun e => !Path.endsInSlash e.name)).map (·.name)).Nodup :=
      hes.nodup.sublist (List.filter_sublist.map _)
    refine List.Nodup.map_on (fun e he f hf heq => ?_) hnames.of_map
    rw [List.mem_filter, Bool.not_eq_true'] at he hf
    obtain ⟨r, hr⟩ := h.entryPath he.1
    obtain ⟨s, hs⟩ := h.entryPath hf.1
    have hpath : entryPath e.name = entryPath f.name := by
      simp only [Function.comp_apply, hr, hs, List.tail_cons] at heq
      rw [hr, hs, heq]
    exact List.inj_on_of_nodup_map hes.nodup he.1 hf.1 (eq_of_entryPath hpath (by rw [he.2, hf.2]))
  · rintro r hr r' hr' rfl
    obtain ⟨p, hp, hpr⟩ := List.mem_map.1 hr'
    obtain ⟨r, n⟩ := p
    obtain rfl := hpr
    obtain ⟨e, he, hpre⟩ := (mem_treeDirs h).1 hr
    obtain ⟨f, hf, hfile, hpath, -⟩ := (mem_treeFiles h).1 hp
    -- A file would also be a directory on the way of another entry.
    have hlead : entryPath f.name <+: entryPath e.name := by
      rw [hpath]
      exact hpre.trans (entryDirs_isPrefix e.name)
    by_cases heq : e.name = f.name
    · have hlen := hpre.length_le
      obtain ⟨last, hlast⟩ := entryDirs_of_not_slash hfile
      rw [heq, ← hpath, hlast, List.length_append, List.length_singleton] at hlen
      omega
    · exact hes.noConflict _ (Zip.mem_names hf) hfile _ (Zip.mem_names he) heq hlead

/-! ## A single directory -/

theorem Unpacked.single (h : Unpacked d₀ d path la entries base l es) (hwithin : Within dir es)
    (hne : es ≠ []) : Disk.Single d l dir := by
  have honly : ∀ y r, d.tree.get? (l ++ y :: r) ≠ none → y = dir := by
    intro y r hsome
    obtain ⟨n, hn⟩ := Option.ne_none_iff_exists'.1 hsome
    obtain ⟨e, he, ⟨-, hpath, -⟩ | ⟨-, hpre⟩⟩ := (h.holds (y :: r) n (by simp)).1 hn
    · obtain ⟨r', hr'⟩ := hwithin.entryPath he
      rw [hr'] at hpath
      exact (List.cons.inj hpath).1.symm
    · obtain ⟨r', hr'⟩ := hwithin e he
      rw [hr', List.cons_prefix_cons] at hpre
      exact hpre.1
  obtain ⟨e, he⟩ := List.exists_mem_of_ne_nil es hne
  obtain ⟨r, hr⟩ := hwithin e he
  refine ⟨⟨newDirMode, (h.holds [dir] _ (by simp)).2 ⟨e, he, Or.inr ⟨rfl, ?_⟩⟩⟩, honly⟩
  rw [hr]
  exact ⟨r, rfl⟩

theorem isFileName_of_stands (hes : Extractable es) {e : Zip.Entry Content} (he : e ∈ es)
    {r : Location} {n : Node} (hstands : Stands e (dir :: r) n) : ∀ p ∈ r, IsFileName p := by
  intro p hp
  have hmem : p ∈ entryPath e.name := hstands.isPrefix.subset (List.mem_cons_of_mem _ hp)
  have hplain := (hes.plain e he).isPlain p hmem
  refine ⟨hplain, ?_⟩
  -- The last character of a piece is neither a slash nor a backslash.
  have hpiece : p ∈ Text.split e.name '/' := by
    rw [split_eq]
    exact List.mem_append_left _ hmem
  unfold isDirectoryName
  cases hlast : p.toList.getLast? with
  | none => rfl
  | some c =>
    have hc := List.mem_of_getLast? hlast
    have hslash : c ≠ '/' := by
      rintro rfl
      exact hplain.slash hc
    have hback : c ≠ '\\' := by
      rintro rfl
      refine (hes.plain e he).backslash ?_
      unfold Text.split at hpiece
      obtain ⟨q, hq, rfl⟩ := List.mem_map.1 hpiece
      rw [String.toList_ofList] at hc
      exact Chars.mem_of_mem_split hq hc
    simp [hslash, hback]

/-- Another name for the directory: the archive stays, and the tree below the name is that of the
entries. -/
theorem Unpacked.rename (h : Unpacked d₀ d path la entries base l es) (hwithin : Within dir es)
    (hne : es ≠ []) (hes : Extractable es) {new : String} (hnew : IsFileName new) :
    Stored d₀ (d.renamedIn l dir new) path la entries ∧ Addable (d.renamedIn l dir new) base l new ∧
      (d.renamedIn l dir new).tree.below (l ++ [new]) =
        Sorted.sort (fun a b => Tree.locationLe a.1 b.1) (treeNodes es) := by
  have hsingle := h.single hwithin hne
  have hscratch := h.scratch.renamedIn new hsingle
  have hcwd : (d.renamedIn l dir new).cwd = d.cwd := by
    unfold Disk.renamedIn
    split <;> rfl
  have hnodes : ∀ r n, (d.renamedIn l dir new).tree.get? (l ++ new :: r) = some n ↔
      ∃ e ∈ es, Stands e (dir :: r) n := by
    intro r n
    rw [Disk.get?_renamedIn]
    exact h.holds (dir :: r) n (by simp)
  refine ⟨h.stored.mono hcwd (Disk.get?_renamedIn_apart h.apart) fun k n _ hn =>
    Disk.get?_renamedIn_apart (h.not_below hn),
    ⟨hscratch, hnew, ?_, fun r n hn => ?_⟩, ?_⟩
  · obtain ⟨m, hm⟩ := hsingle.dir
    exact ⟨m, (Disk.get?_renamedIn []).trans hm⟩
  · obtain ⟨e, he, hstands⟩ := (hnodes r n).1 hn
    exact isFileName_of_stands hes he hstands
  · refine Tree.below_eq (hscratch.nodup_below _) (by simp)
      (nodup_treeNodes hwithin hes) fun r n => ?_
    rw [mem_treeNodes hwithin, List.append_assoc, List.singleton_append, hnodes]

/-! ## Adding the tree -/

/-- The tree is added if its names are free, and its paths and its files fit. -/
theorem addTree_ok_iff {w : Workspace} (w' : Workspace) {new : String} {mode : Nat}
    {nodes : List (Location × Node)} (hstored : Stored d₀ w.disk path la entries)
    (hmode : w.disk.tree.get? la = some (.file (.zip entries) mode))
    (hadd : Addable w.disk base l new) (hnodes : w.disk.tree.below (l ++ [new]) = nodes)
    (hfits : Fits ("/".intercalate (base ++ [new]))) :
    addTree path ("/".intercalate base) new w = .ok () w' ↔
      (∀ p ∈ nodes, Fits ("/".intercalate (base ++ new :: p.1))) ∧
        (∀ p ∈ nodes, nodeFits p = true) ∧
        (Zip.names (entries ++ nodes.map (treeEntry new))).Nodup ∧
        w' = { w with
          disk := w.disk.put la (.file (.zip (entries ++ nodes.map (treeEntry new))) mode) } := by
  have htree : treeAdded w.disk path ("/".intercalate base) new entries =
      addItems w.disk path ("/".intercalate base) entries (nodes.map (itemOf base new)) := by
    unfold treeAdded
    rw [Path.join_plain hadd.scratch.isBase hadd.self.plain.slash, itemsFrom_eq hadd hfits, hnodes]
  have hget : ∀ p ∈ nodes, w.disk.tree.get? (l ++ new :: p.1) = some p.2 := by
    intro p hp
    rw [← hnodes] at hp
    have hsome := (Tree.mem_below (hadd.scratch.nodup_below _) (by simp)).1 hp
    rwa [List.append_assoc, List.singleton_append] at hsome
  have hwrite : ∀ c, w.disk.write path c = .ok (w.disk.put la (.file c mode)) := fun c =>
    Disk.write_ok.2 ⟨la, hstored.locate true, Or.inr ⟨_, mode, hmode, rfl⟩⟩
  rw [addTree_ok]
  constructor
  · rintro ⟨es', d', hopen, hd, hok, rfl⟩
    rw [hstored.openZip] at hopen
    cases hopen
    rw [htree] at hd hok
    cases hadded : addItems w.disk path ("/".intercalate base) entries
      (nodes.map (itemOf base new)) with
    | mk more outcome =>
      rw [hadded] at hd hok
      obtain rfl : outcome = .ok () := hok
      obtain ⟨hfiles, hsizes, hnodup, rfl⟩ := (addItems_ok hadd path hget hstored.nodup).1 hadded
      rw [hwrite, Except.ok.injEq] at hd
      exact ⟨hfiles, hsizes, hnodup, by rw [hd]⟩
  · rintro ⟨hfiles, hsizes, hnodup, rfl⟩
    have hadded := (addItems_ok hadd path hget hstored.nodup).2 ⟨hfiles, hsizes, hnodup, rfl⟩
    refine ⟨entries, _, hstored.openZip, ?_, ?_, rfl⟩
    · rw [htree, hadded]
      exact hwrite _
    · rw [htree, hadded]

theorem stored_cleared (hstored : Stored d₀ d path la entries) (hscratch : Scratch d base l)
    (hfits : Fits ("/".intercalate base)) (hapart : ¬ l <+: la)
    (hfree : ∀ r, d₀.tree.get? (l ++ r) = none) :
    Stored d₀ (Act.cleared d ("/".intercalate base)) path la entries := by
  obtain ⟨m, hdir⟩ := hscratch.dir
  have hne : l ≠ [] := by
    have hnone := hfree []
    rw [List.append_nil] at hnone
    exact Tree.ne_nil_of_none hnone
  have hremove : d.remove ("/".intercalate base) = .ok { d with tree := d.tree.drop l } := by
    unfold Disk.remove
    rw [Disk.find_eq (hscratch.locate_self hfits false) hdir]
    rfl
  have hdrop : ∀ k, ¬ l <+: k → (d.tree.drop l).get? k = d.tree.get? k := by
    intro k hk
    rw [Tree.get?_drop hne, if_neg fun hpre => hk (List.isPrefixOf_iff_prefix.1 hpre)]
  unfold Act.cleared
  rw [hremove]
  refine hstored.mono rfl (hdrop la hapart) fun k n _ hn => hdrop k ?_
  rintro ⟨r, rfl⟩
  rw [hfree r] at hn
  exact absurd hn (by simp)

end Rebadge.Archiver.Native
