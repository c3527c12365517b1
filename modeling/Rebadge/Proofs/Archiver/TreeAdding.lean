import Rebadge.Proofs.Act
import Rebadge.Proofs.Archiver.EntryName
import Rebadge.Proofs.Disk.Moving
import Rebadge.Proofs.Zip

/-!
# Adding a tree

A directory of a scratch directory is added to an archive node by node, in the order of the listing.
It stops at a name that is taken, at a file that is too large, or at a path that is too long, whose
entry is there by then (`adds_addItems`). So all is added if the names are free, the paths fit, and
so do the files (`addItems_ok`).
-/

namespace Rebadge.Archiver.Native

open Disk (Scratch Fits)
open Rebadge.Path (IsPlain IsBase)

variable {d : Disk} {base : List String} {l : Location} {dir : String}

/-- The entry for a node of a tree that is added under a name. -/
def treeEntry (dir : String) : Location × Node → Zip.Entry Content
  | (r, .file c _) => Zip.newFile ("/".intercalate (dir :: r)) c
  | (r, _) => Zip.newDirectory ("/".intercalate (dir :: r) ++ "/") (.bytes [])

/-- A name on which the name of an entry can end without becoming that of a directory. -/
structure IsFileName (name : String) : Prop where
  plain : IsPlain name
  file : isDirectoryName name = false

/-- All nodes of a directory have such names and are files or directories. -/
structure Addable (d : Disk) (base : List String) (l : Location) (dir : String) : Prop where
  scratch : Scratch d base l
  self : IsFileName dir
  isDir : ∃ m, d.tree.get? (l ++ [dir]) = some (.dir m)
  below : ∀ r n, d.tree.get? (l ++ dir :: r) = some n → ∀ p ∈ r, IsFileName p

/-- What the directory walk meets for a node. -/
def itemOf (base : List String) (dir : String) (p : Location × Node) : Item :=
  ⟨"/".intercalate (base ++ dir :: p.1), p.2.isDir⟩

theorem below_file (h : Scratch d base l) {n : Node} (hsome : d.tree.get? (l ++ [dir]) = some n)
    (hfile : n.isDir = false) : d.tree.below (l ++ [dir]) = [([], n)] := by
  have hlisted : ∀ r m, (r, m) ∈ [(([] : Location), n)] ↔
      d.tree.get? (l ++ [dir] ++ r) = some m := by
    intro r m
    by_cases hr : r = []
    · rw [hr, List.append_nil, hsome]
      simp [eq_comm]
    · simp only [List.mem_singleton, Prod.mk.injEq, hr, false_and, false_iff]
      intro hget
      obtain ⟨mode, hdir⟩ := h.closed [dir] r hr (by rw [hget]; exact Option.some_ne_none m)
      rw [hsome, Option.some.injEq] at hdir
      rw [hdir] at hfile
      exact absurd hfile (by simp [Node.isDir])
  rw [Tree.below_eq (h.nodup_below [dir]) (by simp) (by simp) hlisted]
  rfl

theorem itemsFrom_below (h : Scratch d base l) {n : Node}
    (hsome : d.tree.get? (l ++ [dir]) = some n) (hplain : ∀ r, d.tree.get? (l ++ dir :: r) ≠ none →
      ∀ q ∈ dir :: r, IsPlain q) (hfits : Fits ("/".intercalate (base ++ [dir]))) :
    itemsFrom d ("/".intercalate (base ++ [dir])) =
      .ok ((d.tree.below (l ++ [dir])).map (itemOf base dir)) := by
  have hself : IsPlain dir := hplain [] (by simp [hsome]) dir (List.mem_cons_self ..)
  have hfind : ∀ follow, d.find ("/".intercalate (base ++ [dir])) follow = .ok (l ++ [dir], n) :=
    h.find_append ⟨by simpa using hself, hfits⟩ (by simp) hsome
  unfold itemsFrom
  rw [hfind false, hfind true]
  show (if n.isDir = true then _ else _) = _
  split
  · show Except.ok (List.map _ _) = _
    congr 1
    refine List.map_congr_left fun p hp => ?_
    obtain ⟨r, m⟩ := p
    have hget := (Tree.mem_below (h.nodup_below [dir]) (by simp)).1 hp
    rw [List.append_assoc, List.singleton_append] at hget
    have hbase : IsBase (base ++ [dir]) := h.isBase.append (by simpa using hself)
    have hr : ∀ q ∈ r, IsPlain q :=
      fun q hq => hplain r (by simp [hget]) q (List.mem_cons_of_mem _ hq)
    show (⟨r.foldl Path.join _, m.isDir⟩ : Item) = _
    rw [Path.foldl_join hbase hr, itemOf, List.append_assoc, List.singleton_append]
  · next hfile =>
    rw [below_file h hsome (by simpa using hfile), List.map_singleton, itemOf,
      Bool.not_eq_true _ |>.mp hfile]
    rfl

theorem itemsFrom_eq (h : Addable d base l dir) (hfits : Fits ("/".intercalate (base ++ [dir]))) :
    itemsFrom d ("/".intercalate (base ++ [dir])) =
      .ok ((d.tree.below (l ++ [dir])).map (itemOf base dir)) := by
  obtain ⟨m, hdir⟩ := h.isDir
  refine itemsFrom_below h.scratch hdir (fun r hr q hq => ?_) hfits
  obtain ⟨n, hn⟩ := Option.ne_none_iff_exists'.1 hr
  rcases List.mem_cons.1 hq with rfl | hq
  · exact h.self.plain
  · exact (h.below r n hn q hq).plain

theorem entryName?_eq (hbase : IsBase base) {names : List String} (hn : ∀ p ∈ names, IsPlain p) :
    entryName? ("/".intercalate base) ("/".intercalate (base ++ names)) =
      some ("/".intercalate names) := by
  unfold entryName?
  rw [Path.relativeTo?_append hbase hn, Option.map_some, List.map_map]
  congr 2
  exact List.map_id' names

theorem directoryName_eq {names : List String} (hn : ∀ p ∈ names, IsFileName p) (hne : names ≠ []) :
    directoryName ("/".intercalate names) = "/".intercalate names ++ "/" := by
  obtain ⟨front, last, rfl⟩ : ∃ front last, names = front ++ [last] :=
    ⟨_, _, (List.dropLast_concat_getLast hne).symm⟩
  have hlast := hn last (by simp)
  have heq := Path.getLast?_intercalate (fun p hp => (hn p hp).plain.slash) front
    rfl hlast.plain.ne_empty
  have hfile := hlast.file
  unfold directoryName isDirectoryName at *
  rw [heq, hfile]
  rfl

/-! ## Adding nodes -/

/-- The entry for a node that is added under a name. -/
def nodeEntry (new : String) : Location × Node → Zip.Entry Content
  | (r, .file c _) => Zip.newFile ("/".intercalate (new :: r)) c
  | (r, _) => Zip.newDirectory (directoryName ("/".intercalate (new :: r))) (.bytes [])

/-- Its entry before the file is read or the directory is listed. -/
def begunEntry (new : String) (p : Location × Node) : Zip.Entry Content :=
  { nodeEntry new p with data := .bytes [] }

/-- What the node holds can be new data of an entry. -/
def nodeFits : Location × Node → Bool
  | (_, .file c _) => c.fitsEntry
  | _ => true

/-- Different nodes have entries of different names, if the names tell the paths. -/
theorem nodup_names_map {entryOf : Location × Node → Zip.Entry Content}
    {nodes : List (Location × Node)} {new : String}
    (hpath : ∀ p ∈ nodes, entryPath (entryOf p).name = new :: p.1)
    (hnodup : (nodes.map Prod.fst).Nodup) :
    (Zip.names (nodes.map entryOf)).Nodup := by
  have hpaths : (Zip.names (nodes.map entryOf)).map entryPath =
      (nodes.map Prod.fst).map (List.cons new) := by
    unfold Zip.names
    simp only [List.map_map]
    exact List.map_congr_left hpath
  refine List.Nodup.of_map entryPath ?_
  rw [hpaths]
  exact hnodup.map List.cons_injective

/-- How far nodes are added, one after the other. -/
inductive Adds (base : List String) (new : String) (entries : List (Zip.Entry Content))
    (nodes : List (Location × Node)) : List (Zip.Entry Content) × Except Failure Unit → Prop where
  | all (hfits : ∀ p ∈ nodes, Fits ("/".intercalate (base ++ new :: p.1)))
    (hsizes : ∀ p ∈ nodes, nodeFits p = true)
    (hfree : (Zip.names (entries ++ nodes.map (nodeEntry new))).Nodup) :
    Adds base new entries nodes (entries ++ nodes.map (nodeEntry new), .ok ())
  /-- The archive has the name of a node already. -/
  | taken {before after : List (Location × Node)} {p : Location × Node} (e : Failure)
    (hnodes : nodes = before ++ p :: after)
    (hname : (nodeEntry new p).name ∈ Zip.names (entries ++ before.map (nodeEntry new)))
    (hfree : (Zip.names (entries ++ before.map (nodeEntry new))).Nodup) :
    Adds base new entries nodes (entries ++ before.map (nodeEntry new), .error e)
  /-- A file is too large for an entry. -/
  | large {before after : List (Location × Node)} {p : Location × Node} (e : Failure)
    (hnodes : nodes = before ++ p :: after) (hlarge : nodeFits p = false)
    (hfree : (Zip.names (entries ++ before.map (nodeEntry new))).Nodup) :
    Adds base new entries nodes (entries ++ before.map (nodeEntry new), .error e)
  /-- The path of a node is too long. -/
  | overlong {before after : List (Location × Node)} {p : Location × Node} (e : Failure)
    (hnodes : nodes = before ++ p :: after) (hfits : ¬ Fits ("/".intercalate (base ++ new :: p.1)))
    (hfree : (Zip.names (entries ++ before.map (nodeEntry new) ++ [begunEntry new p])).Nodup) :
    Adds base new entries nodes (entries ++ before.map (nodeEntry new) ++ [begunEntry new p],
      .error e)

variable {new archive : String} {entries more : List (Zip.Entry Content)}
  {nodes : List (Location × Node)} {p : Location × Node} {items : List Item}

/-- How one node is added before others. -/
inductive AddsOne (d : Disk) (archive : String) (base : List String) (new : String)
    (entries : List (Zip.Entry Content)) (p : Location × Node) (items : List Item) :
    List (Zip.Entry Content) × Except Failure Unit → Prop where
  | added (hname : (nodeEntry new p).name ∉ Zip.names entries)
    (hfits : Fits ("/".intercalate (base ++ new :: p.1))) (hsize : nodeFits p = true) :
    AddsOne d archive base new entries p items
      (addItems d archive ("/".intercalate base) (entries ++ [nodeEntry new p]) items)
  | taken (e : Failure) (hname : (nodeEntry new p).name ∈ Zip.names entries) :
    AddsOne d archive base new entries p items (entries, .error e)
  | large (e : Failure) (hlarge : nodeFits p = false) :
    AddsOne d archive base new entries p items (entries, .error e)
  | overlong (e : Failure) (hname : (nodeEntry new p).name ∉ Zip.names entries)
    (hfits : ¬ Fits ("/".intercalate (base ++ new :: p.1))) :
    AddsOne d archive base new entries p items (entries ++ [begunEntry new p], .error e)

/-- **One node** of a scratch directory. -/
theorem addsOne (h : Scratch d base l) (hn : ∀ q ∈ new :: p.1, IsPlain q)
    (hget : d.tree.get? (l ++ new :: p.1) = some p.2) (archive : String)
    (entries : List (Zip.Entry Content)) (items : List Item) :
    AddsOne d archive base new entries p items
      (addItems d archive ("/".intercalate base) entries (itemOf base new p :: items)) := by
  have hname : entryName? ("/".intercalate base) (itemOf base new p).path =
      some ("/".intercalate (new :: p.1)) :=
    entryName?_eq h.isBase hn
  rw [addItems, hname]
  obtain ⟨r, n⟩ := p
  cases n with
  | link target => exact absurd hget (h.noLink _ target)
  | dir m =>
    have hentry : Zip.newDirectory (directoryName ("/".intercalate (new :: r)))
      (.bytes []) = nodeEntry new (r, .dir m) := rfl
    dsimp only
    rw [if_pos (by rfl), hentry]
    have hlist := h.list_ok hn (List.cons_ne_nil _ _) hget
    by_cases hmem : (nodeEntry new (r, .dir m)).name ∈ Zip.names entries
    · rw [Zip.add?_eq_none.2 hmem]
      exact .taken _ hmem
    rw [Zip.add?_of_not_mem hmem]
    cases hresult : d.list (itemOf base new (r, .dir m)).path with
    | ok found => exact .added hmem ((hlist _).1 hresult).1 rfl
    | error e =>
      refine .overlong (p := (r, .dir m)) _ hmem fun hfits => ?_
      have hok : d.list (itemOf base new (r, .dir m)).path = .ok _ := (hlist _).2 ⟨hfits, rfl⟩
      rw [hresult] at hok
      exact absurd hok (by simp)
  | file c m =>
    have hentry : Zip.newFile ("/".intercalate (new :: r))
      (.bytes []) = begunEntry new (r, .file c m) := rfl
    dsimp only
    rw [if_neg (by simp [itemOf, Node.isDir]), hentry]
    have hread := h.read_ok hn (List.cons_ne_nil _ _) hget
    by_cases hmem : (begunEntry new (r, .file c m)).name ∈ Zip.names entries
    · rw [Zip.add?_eq_none.2 hmem]
      exact .taken _ hmem
    rw [Zip.add?_of_not_mem hmem]
    cases hresult : d.read (itemOf base new (r, .file c m)).path with
    | ok content =>
      obtain ⟨hfits, rfl⟩ := (hread _).1 hresult
      dsimp only
      cases hsize : content.fitsEntry with
      | true => exact .added (p := (r, .file content m)) hmem hfits hsize
      | false => exact .large (p := (r, .file content m)) _ hsize
    | error e =>
      refine .overlong (p := (r, .file c m)) _ hmem fun hfits => ?_
      have hok : d.read (itemOf base new (r, .file c m)).path = .ok c := (hread _).2 ⟨hfits, rfl⟩
      rw [hresult] at hok
      exact absurd hok (by simp)

theorem Adds.cons {x : List (Zip.Entry Content) × Except Failure Unit}
    (hp : Fits ("/".intercalate (base ++ new :: p.1))) (hsize : nodeFits p = true)
    (h : Adds base new (entries ++ [nodeEntry new p]) nodes x) :
    Adds base new entries (p :: nodes) x := by
  have hassoc : ∀ before : List (Location × Node), entries ++ [nodeEntry new p] ++
      before.map (nodeEntry new) =
      entries ++ (p :: before).map (nodeEntry new) := fun before => by simp
  cases h with
  | all hfits hsizes hfree =>
    rw [hassoc] at hfree ⊢
    exact .all (List.forall_mem_cons.2 ⟨hp, hfits⟩) (List.forall_mem_cons.2 ⟨hsize, hsizes⟩) hfree
  | taken e hnodes hname hfree =>
    rw [hassoc] at hname hfree ⊢
    exact .taken e (by rw [hnodes, List.cons_append]) hname hfree
  | large e hnodes hlarge hfree =>
    rw [hassoc] at hfree ⊢
    exact .large e (by rw [hnodes, List.cons_append]) hlarge hfree
  | overlong e hnodes hfits hfree =>
    rw [hassoc] at hfree ⊢
    exact .overlong e (by rw [hnodes, List.cons_append]) hfits hfree

/-- **All nodes**, one after the other. -/
theorem adds_addItems (h : Scratch d base l) (archive : String)
    (hnodes : ∀ p ∈ nodes, (∀ q ∈ new :: p.1, IsPlain q) ∧ d.tree.get? (l ++ new :: p.1) = some p.2)
    (hnodup : (Zip.names entries).Nodup) :
    Adds base new entries nodes
    (addItems d archive ("/".intercalate base) entries (nodes.map (itemOf base new))) := by
  induction nodes generalizing entries with
  | nil =>
    have hall : Adds base new entries [] (entries ++ [].map (nodeEntry new), .ok ()) :=
      .all (by simp) (by simp) (by simpa using hnodup)
    rwa [List.map_nil, List.append_nil] at hall
  | cons p nodes ih =>
    obtain ⟨⟨hn, hget⟩, hrest⟩ := List.forall_mem_cons.1 hnodes
    rw [List.map_cons]
    have hone := addsOne h hn hget archive entries (nodes.map (itemOf base new))
    generalize addItems d archive _ entries _ = x at hone
    cases hone with
    | added hname hfits hsize =>
      exact (ih hrest (Zip.nodup_concat hnodup hname)).cons hfits hsize
    | taken e hname =>
      have hstop : Adds base new entries (p :: nodes)
          (entries ++ [].map (nodeEntry new), .error e) :=
        .taken e rfl (by simpa using hname) (by simpa using hnodup)
      rwa [List.map_nil, List.append_nil] at hstop
    | large e hlarge =>
      have hstop : Adds base new entries (p :: nodes)
          (entries ++ [].map (nodeEntry new), .error e) :=
        .large e rfl hlarge (by simpa using hnodup)
      rwa [List.map_nil, List.append_nil] at hstop
    | overlong e hname hfits =>
      have hstop : Adds base new entries (p :: nodes)
          (entries ++ [].map (nodeEntry new) ++ [begunEntry new p], .error e) :=
        .overlong e rfl hfits (by simpa using Zip.nodup_concat (e := begunEntry new p) hnodup hname)
      rwa [List.map_nil, List.append_nil] at hstop

/-! ## Adding them all -/

theorem nodeEntry_eq (hn : ∀ q ∈ new :: p.1, IsFileName q) : nodeEntry new p = treeEntry new p := by
  obtain ⟨r, n⟩ := p
  cases n with
  | file c m => rfl
  | dir m => exact congrArg (Zip.newDirectory · _) (directoryName_eq hn (List.cons_ne_nil _ _))
  | link target =>
    exact congrArg (Zip.newDirectory · _) (directoryName_eq hn (List.cons_ne_nil _ _))

/-- **Adding a tree.** All nodes can be added if the names are free, and the paths and the files
fit. -/
theorem addItems_ok (h : Addable d base l dir) (archive : String)
    (hnodes : ∀ p ∈ nodes, d.tree.get? (l ++ dir :: p.1) = some p.2)
    (hnodup : (Zip.names entries).Nodup) :
    addItems d archive ("/".intercalate base) entries (nodes.map (itemOf base dir)) =
      (more, .ok ()) ↔
      (∀ p ∈ nodes, Fits ("/".intercalate (base ++ dir :: p.1))) ∧
        (∀ p ∈ nodes, nodeFits p = true) ∧
        (Zip.names (entries ++ nodes.map (treeEntry dir))).Nodup ∧
        more = entries ++ nodes.map (treeEntry dir) := by
  have hnames : ∀ p ∈ nodes, ∀ q ∈ dir :: p.1, IsFileName q := by
    intro p hp q hq
    rcases List.mem_cons.1 hq with rfl | hq
    · exact h.self
    · exact h.below p.1 p.2 (hnodes p hp) q hq
  have hadds := adds_addItems h.scratch archive
    (fun p hp => ⟨fun q hq => (hnames p hp q hq).plain, hnodes p hp⟩) hnodup
  rw [← List.map_congr_left fun p hp => nodeEntry_eq (hnames p hp)]
  generalize addItems d archive _ entries _ = x at hadds ⊢
  cases hadds with
  | all hfits hsizes hfree =>
    simp only [Prod.mk.injEq, and_true]
    exact ⟨fun heq => ⟨hfits, hsizes, hfree, heq.symm⟩, fun hall => hall.2.2.2.symm⟩
  | @taken before after p e hsplit hname _ =>
    refine iff_of_false (by simp) fun hall => ?_
    have hfree := hall.2.2.1
    rw [hsplit, List.map_append, List.map_cons, ← List.append_assoc, Zip.names_append,
      List.nodup_append] at hfree
    exact hfree.2.2 _ hname _ (by simp [Zip.names]) rfl
  | large e hsplit hlarge _ =>
    refine iff_of_false (by simp) fun hall => ?_
    have hsize := hall.2.1 _ (hsplit ▸ List.mem_append_right _ List.mem_cons_self)
    rw [hlarge] at hsize
    exact absurd hsize (by simp)
  | overlong e hsplit hnot _ =>
    refine iff_of_false (by simp) fun hall => hnot (hall.1 _ ?_)
    rw [hsplit]
    exact List.mem_append_right _ (List.mem_cons_self ..)

end Rebadge.Archiver.Native
