import Rebadge.Proofs.Alike
import Rebadge.Proofs.Archiver.EntryName
import Rebadge.Proofs.Disk.Operations

/-!
# Archives on twin disks

What is extracted from an archive stays below the directory it is extracted in, so it ends alike on
two disks that are the same there (`alike_extractEntries`), and adding a tree of the directory adds
the same entries (`treeAdded_congr`). What is done to the archive itself ends alike wherever it is
the same file (`Holding`).
-/

namespace Rebadge.Archiver.Native

open Rebadge.Path (IsPlain IsBase isIdle)
open Disk (Inner Inward Kept Twins Both)
open Act (Alike OnDisks Agree)

variable {a a' : Workspace} {bases : List (List String)} {l : Location}
  {own : List Location} {o o' d d' : Disk} {dest path : String}

/-! ## The archive itself -/

/-- On both disks the path leads to a file that is the same, and it may get another content. -/
structure Holding (R : Disk → Disk → Prop) (path : String) (la : Location) : Prop where
  cwd : ∀ d d', R d d' → d.cwd = d'.cwd
  locate : ∀ d d', R d d' → ∀ f, d.locate path f = .ok la ∧ d'.locate path f = .ok la
  file : ∀ d d', R d d' → ∃ c m, d.tree.get? la = some (.file c m) ∧
    d'.tree.get? la = some (.file c m)
  put : ∀ d d', R d d' → ∀ c m, R (d.put la (.file c m)) (d'.put la (.file c m))

variable {R : Disk → Disk → Prop} {la : Location}

theorem Holding.find (h : Holding R path la) (hd : R d d') (f : Bool) :
    d.find path f = d'.find path f := by
  obtain ⟨c, m, hfile, hfile'⟩ := h.file d d' hd
  obtain ⟨hlocate, hlocate'⟩ := h.locate d d' hd f
  rw [Disk.find_eq hlocate hfile, Disk.find_eq hlocate' hfile']

theorem Holding.read (h : Holding R path la) (hd : R d d') : d.read path = d'.read path := by
  unfold Disk.read
  rw [h.find hd]

theorem Holding.write (h : Holding R path la) (hd : R d d') (c : Content) :
    Both R (d.write path c) (d'.write path c) := by
  obtain ⟨c', m, hfile, hfile'⟩ := h.file d d' hd
  obtain ⟨hlocate, hlocate'⟩ := h.locate d d' hd true
  rw [Disk.write_ok.2 ⟨la, hlocate, Or.inr ⟨c', m, hfile, rfl⟩⟩,
    Disk.write_ok.2 ⟨la, hlocate', Or.inr ⟨c', m, hfile', rfl⟩⟩]
  exact .ok (h.put d d' hd c m)

theorem Holding.replace (h : Holding R path la) (hd : R d d') (c : Content) :
    Both R (d.replace path c) (d'.replace path c) := by
  obtain ⟨c', m, hfile, hfile'⟩ := h.file d d' hd
  obtain ⟨hlocate, hlocate'⟩ := h.locate d d' hd false
  rw [Disk.replace_ok.2 ⟨la, hlocate, by simp [hfile], rfl⟩,
    Disk.replace_ok.2 ⟨la, hlocate', by simp [hfile'], rfl⟩]
  exact .ok (h.put d d' hd c _)

theorem alike_openZip (h : ∀ d d', R d d' → d.find path true = d'.find path true) :
    Alike (OnDisks a a' R) (openZip path) := by
  unfold openZip
  refine (Act.alike_look h).bind fun p => ?_
  obtain ⟨k, n⟩ := p
  cases n with
  | file c m => exact Act.alike_ofExcept _
  | dir m => exact Act.alike_throw _
  | link target => exact Act.alike_throw _

theorem Holding.openZip (h : Holding R path la) : Alike (OnDisks a a' R) (openZip path) :=
  alike_openZip fun _ _ hd => h.find hd true

theorem Holding.rewriting (h : Holding R path la) {w w' : Workspace} (hw : OnDisks a a' R w w')
    (action : String → Zip.Action Content) (entries : List (Zip.Entry Content)) :
    rewriting w path action entries = rewriting w' path action entries := by
  unfold Native.rewriting Workspace.grant Disk.beside Disk.besidePath Disk.cwdText
  rw [h.cwd _ _ hw.disks, hw.refuses]

theorem Holding.editArchive (h : Holding R path la) (action : String → Zip.Action Content) :
    Alike (OnDisks a a' R) (editArchive path action) := by
  unfold Native.editArchive
  refine h.openZip.bind fun entries => Act.alike_get_bind (fun w w' hw => ?same) fun w => ?_
  case same => rw [h.rewriting hw]
  refine (Act.alike_ofExcept _).bind fun _ => ?_
  exact (Act.alike_change fun _ _ hd => h.replace hd _).bind fun _ => Act.alike_pure _

theorem Holding.replaceEntry (h : Holding R path la) (entry : String) (c : Content) :
    Alike (OnDisks a a' R) (replaceEntry path entry c) := by
  unfold Native.replaceEntry
  refine (h.editArchive _).bind fun entries => ?_
  exact Act.alike_ite (fun _ => Act.alike_throw _) fun _ => Act.alike_pure _

theorem Holding.deleteEntries (h : Holding R path la) (doomed : List String) :
    Alike (OnDisks a a' R) (deleteEntries path doomed) := by
  unfold Native.deleteEntries discard
  exact (h.editArchive _).bind fun _ => Act.alike_pure _

/-! ## Extraction -/

/-- An entry is read the same, since both disks have the archive at the same place. -/
theorem readInto_congr {archive target : String} (h : Twins bases l own o o' d d')
    (htarget : Inner bases target) (hfind : d.find archive true = d'.find archive true)
    (e : Zip.Entry Content) :
    readInto target archive d e = readInto target archive d' e := by
  unfold readInto
  rw [hfind, (h.locate htarget true).1]

theorem alike_extractEntry (hbases : ∀ base ∈ bases, IsBase base) (hdest : Inner bases dest)
    {archive : String} (hfind : ∀ d d', Twins bases l own o o' d d' →
      d.find archive true = d'.find archive true)
    (entries : List (Zip.Entry Content)) {name : String}
    (hname : ∃ p ∈ Text.split name '/', isIdle p = false) :
    Alike (OnDisks a a' (Twins bases l own o o')) (extractEntry archive entries dest name) := by
  unfold extractEntry
  cases Zip.find? entries name with
  | none => exact Act.alike_throw _
  | some e =>
    refine Act.alike_ite (fun _ => Act.alike_throw_bind _ _) fun hclosed => ?_
    have henclosed : isEnclosed name = true := by simpa using hclosed
    obtain ⟨hrel, hstays⟩ := stays_of_isEnclosed henclosed
    have htarget := hdest.join hbases hrel hstays
    refine Act.alike_ite (fun _ => Act.alike_makeDirs fun _ _ hd => hd.ensureDirs htarget) fun _ =>
      ?_
    refine Alike.bind ?parents fun _ => Act.alike_disk_bind (fun d d' hd => ?read) fun _ _ _ =>
      (Act.alike_change fun _ _ hd => hd.write htarget _).bind fun _ =>
        Act.alike_ite (fun _ => Act.alike_throw _) fun _ => Act.alike_pure _
    case read => rw [readInto_congr hd htarget (hfind d d' hd)]
    case parents =>
      -- The directory above the target is at or below the destination, since the target has a name
      -- of its own.
      obtain ⟨names, hdest⟩ := hdest
      obtain ⟨front, hfront⟩ := hdest.join hbases hrel hstays
      obtain ⟨p, hp, hidle⟩ := hname
      obtain ⟨above, habove, hinner⟩ := hfront.parent hbases ⟨p, List.mem_append_right _ hp, hidle⟩
      unfold Act.makeParents
      rw [habove]
      exact Act.alike_makeDirs fun _ _ hd => hd.ensureDirs hinner

theorem alike_extractEntries (hbases : ∀ base ∈ bases, IsBase base) (hdest : Inner bases dest)
    {archive : String} (hfind : ∀ d d', Twins bases l own o o' d d' →
      d.find archive true = d'.find archive true) {names : List String}
    (hnames : ∀ name ∈ names, ∃ p ∈ Text.split name '/', isIdle p = false) :
    Alike (OnDisks a a' (Twins bases l own o o')) (extractEntries archive names dest) := by
  unfold extractEntries
  exact (alike_openZip hfind).bind fun entries => Act.alike_forM fun name hname =>
    alike_extractEntry hbases hdest hfind entries (hnames name hname)

/-! ## Adding a tree -/

theorem itemsFrom_congr (h : Twins bases l own o o' d d') (hp : Inner bases path) :
    itemsFrom d path = itemsFrom d' path ∧ ∀ items, itemsFrom d path = .ok items →
    ∀ i ∈ items, Inner bases i.path := by
  obtain ⟨heq, hspot⟩ := h.find hp false
  unfold itemsFrom
  rw [← heq, ← (h.find hp true).1]
  cases hfind : d.find path false with
  | error e => exact ⟨rfl, by simp [bind, Except.bind]⟩
  | ok p =>
    obtain ⟨k, n⟩ := p
    obtain ⟨r, rfl⟩ := (hspot k n hfind).1.below
    cases d.find path true with
    | error e => exact ⟨rfl, by simp [bind, Except.bind]⟩
    | ok q =>
      have hbelow := h.left.clear.below_congr h.right.clear h.below r
      simp only [bind, Except.bind]
      by_cases hn : n.isDir = true
      · rw [if_pos hn, if_pos hn, hbelow]
        refine ⟨rfl, fun items hitems i hi => ?_⟩
        rw [← Except.ok.inj hitems] at hi
        obtain ⟨⟨rest, m⟩, hrest, rfl⟩ := List.mem_map.1 hi
        refine hp.foldl_join h.left.isBase fun p hp' => ?_
        rw [← hbelow] at hrest
        have hne : l ++ r ≠ [] := by simp [h.left.clear.ne_nil]
        have hget := (Tree.mem_below (h.left.clear.nodup_below r) hne).1 hrest
        rw [List.append_assoc] at hget
        have hplain := h.left.clear.plain (r ++ rest)
          (by simp [hget]) p (List.mem_append_right _ hp')
        exact ⟨hplain.slash, hplain.ne_parent⟩
      · rw [if_neg hn, if_neg hn]
        refine ⟨rfl, fun items hitems i hi => ?_⟩
        rw [← Except.ok.inj hitems, List.mem_singleton] at hi
        rw [hi]
        exact hp

theorem addItems_congr (h : Twins bases l own o o' d d') (archive base : String) {items : List Item}
    (hitems : ∀ i ∈ items, Inner bases i.path) (entries : List (Zip.Entry Content)) :
    addItems d archive base entries items = addItems d' archive base entries items := by
  induction items generalizing entries with
  | nil => rfl
  | cons item rest ih =>
    obtain ⟨hitem, hrest⟩ := List.forall_mem_cons.1 hitems
    unfold addItems
    simp only [ih hrest, h.read hitem, h.list hitem]

theorem treeAdded_congr (h : Twins bases l own o o' d d') {base dirName : String}
    (hp : Inner bases (Path.join base dirName)) (archive : String)
    (entries : List (Zip.Entry Content)) :
    treeAdded d archive base dirName entries = treeAdded d' archive base dirName entries := by
  obtain ⟨heq, hinner⟩ := itemsFrom_congr h hp
  unfold treeAdded
  rw [← heq]
  cases hitems : itemsFrom d (Path.join base dirName) with
  | error e => rfl
  | ok items => exact addItems_congr h archive base (hinner items hitems) entries

theorem alike_addTree {base dirName : String} (hp : Inner bases (Path.join base dirName))
    (h : Holding (Twins bases l own o o') path la) :
    Alike (OnDisks a a' (Twins bases l own o o')) (addTree path base dirName) := by
  unfold addTree
  refine (Act.alike_look fun _ _ hd => h.read hd).bind fun content =>
    (Act.alike_ofExcept _).bind fun entries => ?_
  refine Act.alike_disk_bind (fun d d' hd => ?_) fun d d' hd => ?_
  · show (Act.change (·.write path (.zip (treeAdded d path base dirName entries).1)) >>= fun _ =>
      Act.ofExcept (treeAdded d path base dirName entries).2) =
        (Act.change (·.write path (.zip (treeAdded d' path base dirName entries).1)) >>= fun _ =>
      Act.ofExcept (treeAdded d' path base dirName entries).2)
    rw [treeAdded_congr hd hp]
  · exact (Act.alike_change fun _ _ hd => h.write hd _).bind fun _ => Act.alike_ofExcept _

end Rebadge.Archiver.Native
