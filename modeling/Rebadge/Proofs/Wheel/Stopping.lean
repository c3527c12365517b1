import Rebadge.Proofs.Archiver.TreeStopping
import Rebadge.Proofs.Sdist.Bench
import Rebadge.Proofs.Wheel.Contents
import Rebadge.Proofs.Wheel.Twins

/-!
# Where a patch stops

A patch makes passes over the archive, and it may fail in each of them. However it ends, the archive
is what some of the passes have made of it, or part of the renamed directory is in it as well, up to
a path that is too long or a file that is too large (`patch_stops`). Entries outside the directory
that are not tracked stay what they are in any case, and so does their order (`Stops.foreign`); and
no other directory for metadata is there beside the old one (`Stops.single`).
-/

namespace Rebadge.Wheel

open Archiver (native)
open Archiver.Native
open Act (Keeps leaves)
open Disk (Fits Kept Inner openedBases)
open Rebadge.Path (IsPlain)
open Sdist (Bench Working started)

variable {w w' w₁ : Workspace} {c : Config} {path : String}
  {entries final : List (Zip.Entry Content)} {s : Scan} {sources : List (String × Content)}
  {new : String} {nodes : List (Location × Node)}

/-! ## Where it can stop -/

/-- The archive once all replacements are made and the directory is deleted. -/
def keptEntries (c : Config) (s : Scan) (sources : List (String × Content))
    (entries : List (Zip.Entry Content)) : List (Zip.Entry Content) :=
  Zip.delete s.entries (filledEntries c s sources entries)

/-- What a move finds: its directory is unpacked and deleted, one directory of the package is in the
scratch directory, and it has certain nodes. With it comes its new name. -/
inductive Found (c : Config) (path : String) (s : Scan) (w : Workspace) :
    String → List (Location × Node) → Prop where
  | intro {d : Disk} {w₁ : Workspace} {found : String} {k : Location}
    (hmake : w.disk.makeDir (Act.scratchPath w) = .ok d)
      (hunpack : (native.extractEntries path s.entries (Act.scratchPath w) >>= fun _ =>
        native.deleteEntries path s.entries)
      { w with disk := d } = .ok () w₁)
    (hfind : findDistInfo w₁.disk (Act.scratchPath w) c.distName path = .ok found)
    (hlocate : w₁.disk.locate found false = .ok k)
    (hnew : IsDirName (c.renamed ((Path.fileName? found).getD ""))) :
    Found c path s w (c.renamed ((Path.fileName? found).getD "")) (w₁.disk.tree.below k)

/-- What some of the passes have made of the entries, the move of the directory being started in a
workspace. -/
inductive AtBoundary (c : Config) (path : String) (s : Scan) (sources : List (String × Content))
    (entries : List (Zip.Entry Content)) (w : Workspace) : List (Zip.Entry Content) → Prop where
  | replaced (n : Nat) :
    AtBoundary c path s sources entries w (replaceEach ((replacements c s sources).take n) entries)
  | deleted : AtBoundary c path s sources entries w (keptEntries c s sources entries)
  | added {new : String} {nodes : List (Location × Node)} (hfound : Found c path s w new nodes) :
    AtBoundary c path s sources entries w
    (keptEntries c s sources entries ++ nodes.map (nodeEntry new))

/-- The last pass has come to a path that is too long, or to a file that is too large. -/
inductive Interrupted (c : Config) (path : String) (s : Scan) (sources : List (String × Content))
    (entries : List (Zip.Entry Content)) (w : Workspace) : List (Zip.Entry Content) → Prop where
  | overlong {new : String} {before after : List (Location × Node)} {p : Location × Node}
    (hfound : Found c path s w new (before ++ p :: after))
    (hfits : ¬ Fits ("/".intercalate (scratchBase w ++ new :: p.1))) :
    Interrupted c path s sources entries w
      (keptEntries c s sources entries ++ before.map (nodeEntry new) ++ [begunEntry new p])
  /-- The entry of the file is given up. -/
  | large {new : String} {before after : List (Location × Node)} {p : Location × Node}
    (hfound : Found c path s w new (before ++ p :: after)) (hlarge : nodeFits p = false) :
    Interrupted c path s sources entries w
      (keptEntries c s sources entries ++ before.map (nodeEntry new))

/-- Where a patch stops. -/
def Stops (c : Config) (path : String) (s : Scan) (sources : List (String × Content))
    (entries : List (Zip.Entry Content)) (w : Workspace) (final : List (Zip.Entry Content)) :
    Prop :=
  AtBoundary c path s sources entries w final ∨ Interrupted c path s sources entries w final

/-- The entries are those that are kept, and others below a new name. -/
structure Appends (c : Config) (s : Scan) (sources : List (String × Content))
    (entries : List (Zip.Entry Content)) (new : String) (more final : List (Zip.Entry Content)) :
    Prop where
  isDirName : IsDirName new
  eq : final = keptEntries c s sources entries ++ more
  below : ∀ e ∈ more, e.name = new ∨ inside new e.name = true

theorem Found.isDirName (h : Found c path s w new nodes) : IsDirName new := by
  cases h with
  | intro _ _ _ _ hnew => exact hnew

/-- Either some replacements are made, or the directory is deleted and entries are added. -/
theorem Stops.cases (h : Stops c path s sources entries w final) (hdir : IsDirName s.dir) :
    (∃ n, final = replaceEach ((replacements c s sources).take n) entries) ∨
      ∃ new more, Appends c s sources entries new more final := by
  have hnodes : ∀ (new : String) (nodes : List (Location × Node)), ∀ e ∈ nodes.map (nodeEntry new),
      e.name = new ∨ inside new e.name = true := by
    intro new nodes e he
    obtain ⟨p, -, rfl⟩ := List.mem_map.1 he
    exact name_nodeEntry_below new p
  rcases h with h | h
  · cases h with
    | replaced n => exact Or.inl ⟨n, rfl⟩
    | deleted => exact Or.inr ⟨s.dir, [], hdir, (List.append_nil _).symm, by simp⟩
    | @added new nodes hfound => exact Or.inr ⟨new, _, hfound.isDirName, rfl, hnodes new nodes⟩
  · cases h with
    | @large new before after p hfound =>
      exact Or.inr ⟨new, _, hfound.isDirName, rfl, hnodes new before⟩
    | @overlong new before after p hfound =>
      refine Or.inr ⟨new, before.map (nodeEntry new) ++ [begunEntry new p], hfound.isDirName,
        List.append_assoc _ _ _, ?_⟩
      intro e he
      rcases List.mem_append.1 he with he | he
      · exact hnodes new before e he
      · rw [List.mem_singleton.1 he]
        exact name_nodeEntry_below new p

/-! ## What is left alone -/

/-- The name is neither in the directory nor that of a tracked file. -/
def isForeign (c : Config) (dir name : String) : Bool :=
  !inside dir name && !c.trackedFiles.contains name

/-- All of an entry but its mode. -/
def unmoded (e : Zip.Entry Content) : Zip.Entry Content := { e with mode := none }

/-- The foreign entries but for their modes. -/
def foreign (c : Config) (dir : String) (entries : List (Zip.Entry Content)) :
    List (Zip.Entry Content) :=
  (entries.filter fun e => isForeign c dir e.name).map unmoded

theorem foreign_append (c : Config) (dir : String) (es es' : List (Zip.Entry Content)) :
    foreign c dir (es ++ es') = foreign c dir es ++ foreign c dir es' := by
  unfold foreign
  rw [List.filter_append, List.map_append]

theorem foreign_edit {dir : String} {action : String → Zip.Action Content}
    (h : ∀ n, isForeign c dir n = true → action n = .keep) (es : List (Zip.Entry Content)) :
    foreign c dir (Zip.edit action es) = foreign c dir es := by
  have hforeign : ∀ es : List (Zip.Entry Content), foreign c dir es =
      es.filterMap fun e => if isForeign c dir e.name then some (unmoded e) else none := by
    intro es
    unfold foreign
    rw [← List.filterMap_eq_map', ← List.filterMap_eq_filter, List.filterMap_filterMap]
    refine List.filterMap_congr fun e _ => ?_
    unfold Option.guard
    split <;> rfl
  rw [hforeign, hforeign, Zip.edit, List.filterMap_filterMap]
  refine List.filterMap_congr fun e _ => ?_
  cases hname : isForeign c dir e.name with
  | true =>
    rw [h e.name hname]
    simp [Zip.Action.apply, hname, unmoded]
  | false =>
    cases action e.name <;> simp [Zip.Action.apply, hname]

theorem foreign_replaceEach {dir : String} {ps : List (String × Content)}
    (h : ∀ p ∈ ps, isForeign c dir p.1 = false) (es : List (Zip.Entry Content)) :
    foreign c dir (replaceEach ps es) = foreign c dir es := by
  induction ps generalizing es with
  | nil => rfl
  | cons p ps ih =>
    obtain ⟨hp, hps⟩ := List.forall_mem_cons.1 h
    refine (ih hps _).trans (foreign_edit (fun n hn => ?_) es)
    unfold Zip.replacing
    rw [if_neg]
    rintro rfl
    rw [hp] at hn
    exact absurd hn (by simp)

theorem isForeign_replacements {d : Disk} (hread : ReadFrom c d sources) :
    ∀ p ∈ replacements c s sources, isForeign c s.dir p.1 = false := by
  intro p hp
  unfold isForeign
  rw [Bool.and_eq_false_iff, Bool.not_eq_false', Bool.not_eq_false',
    List.contains_iff_mem, ← hread.names]
  rcases List.mem_cons.1 hp with rfl | hp
  · exact Or.inl (inside_inDir s.dir "METADATA")
  rcases List.mem_cons.1 hp with rfl | hp
  · exact Or.inl (inside_inDir s.dir "RECORD")
  · exact Or.inr (List.mem_map_of_mem hp)

theorem mem_scan_entries (hscan : scanEntries path entries = .ok s) {n : String} :
    n ∈ s.entries ↔ n ∈ Zip.names entries ∧ inside s.dir n = true := by
  obtain ⟨-, -, -, -, -, hentries⟩ := scanEntries_ok.1 hscan
  rw [hentries, Sorted.mem_sort, List.mem_filter]
  rfl

/-- **The foreign entries** stay in any case. -/
theorem Stops.foreign {d : Disk} (h : Stops c path s sources entries w final)
    (hscan : scanEntries path entries = .ok s) (hread : ReadFrom c d sources) :
    foreign c s.dir entries <+: foreign c s.dir final := by
  have hreplaced : ∀ n,
      Wheel.foreign c s.dir (replaceEach ((replacements c s sources).take n) entries) =
      Wheel.foreign c s.dir entries := fun n =>
    foreign_replaceEach (fun p hp => isForeign_replacements hread p (List.mem_of_mem_take hp))
      entries
  rcases h.cases (isDirName_of_scan hscan) with ⟨n, rfl⟩ | ⟨new, more, happends⟩
  · rw [hreplaced]
  · have hall := hreplaced (replacements c s sources).length
    rw [List.take_length, replaceEach_replacements] at hall
    rw [happends.eq, foreign_append, keptEntries, Zip.delete, foreign_edit, hall]
    · exact List.prefix_append _ _
    intro n hn
    unfold Zip.deleting
    rw [if_neg]
    intro hmem
    unfold isForeign at hn
    rw [((mem_scan_entries hscan).1 hmem).2] at hn
    exact absurd hn (by simp)

theorem mem_names_keptEntries (hscan : scanEntries path entries = .ok s) {n : String}
    (h : n ∈ Zip.names (keptEntries c s sources entries)) :
    n ∈ Zip.names entries ∧ inside s.dir n = false := by
  unfold keptEntries at h
  rw [delete_filledEntries hscan] at h
  exact mem_names_kept h

/-- A name is in one directory for metadata at most. -/
theorem eq_of_inside_both {dir dir' n : String} (hdir : IsDirName dir) (hdir' : IsDirName dir')
    (h : inside dir n = true) (h' : inside dir' n = true) : dir = dir' :=
  Option.some.inj ((distInfoOf?_of_inside hdir h).symm.trans (distInfoOf?_of_inside hdir' h'))

theorem Appends.eq_of_inside {more : List (Zip.Entry Content)}
    (h : Appends c s sources entries new more final) {e : Zip.Entry Content} (he : e ∈ more)
    {dir : String} (hdir : IsDirName dir) (hinside : inside dir e.name = true) :
    dir = new := by
  rcases h.below e he with hname | hbelow
  · rw [hname] at hinside
    obtain ⟨rest, hrest⟩ := exists_inDir hinside
    refine absurd ?_ h.isDirName.slash
    rw [hrest, inDir, String.toList_append, String.toList_append]
    simp
  · exact eq_of_inside_both hdir h.isDirName hinside hbelow

/-- An entry is in the directory. -/
def HasInside (entries : List (Zip.Entry Content)) (dir : String) : Prop :=
  ∃ e ∈ entries, inside dir e.name = true

/-- **No other directory** for metadata is there beside the old one. -/
theorem Stops.single (h : Stops c path s sources entries w final)
    (hscan : scanEntries path entries = .ok s) {dir : String} (hdir : IsDirName dir)
    (hold : HasInside final s.dir) (hnew : HasInside final dir) : dir = s.dir := by
  obtain ⟨e, he, hinside⟩ := hold
  obtain ⟨f, hf, hinside'⟩ := hnew
  rcases h.cases (isDirName_of_scan hscan) with ⟨n, rfl⟩ | ⟨new, more, happends⟩
  · have hmem := Zip.mem_names hf
    rw [names_replaceEach] at hmem
    exact eq_of_inside hscan hdir hmem hinside'
  rw [happends.eq, List.mem_append] at he hf
  rcases hf with hf | hf
  · exact eq_of_inside hscan hdir (mem_names_keptEntries hscan (Zip.mem_names hf)).1 hinside'
  rcases he with he | he
  · rw [(mem_names_keptEntries hscan (Zip.mem_names he)).2] at hinside
    exact absurd hinside (by simp)
  · exact (happends.eq_of_inside hf hdir hinside').trans
      (happends.eq_of_inside he (isDirName_of_scan hscan) hinside).symm

/-! ## The steps of the move -/

variable {la l : Location} {es es' : List (Zip.Entry Content)} {d : Disk}

/-- Work in a scratch directory, which leaves certain entries in the archive and all else alone. -/
structure AtWork (w : Workspace) (path : String) (la l : Location) (es : List (Zip.Entry Content))
    (w₁ : Workspace) : Prop where
  working : Working w l [la] w₁
  stored : Stored w.disk w₁.disk path la es

theorem mem_openedBases (w : Workspace) (l : Location) :
    scratchBase w ∈ openedBases (Act.scratchPath w) l :=
  List.mem_cons_self ..

theorem atWork_of_working (h : Bench w path la l) (hstored : Stored w.disk w.disk path la es)
    (hw : Working w l [] w₁) : AtWork w path la l es w₁ := by
  have hget : ∀ k n, w.disk.tree.get? k = some n → w₁.disk.tree.get? k = some n := fun k n hn => by
    rw [h.opening.get?_kept hw.kept (by simp [hn]) List.not_mem_nil, hn]
  obtain ⟨m, hfile⟩ := hstored.file
  exact ⟨h.owning hw, hstored.leads, hstored.origin, fun k n _ hn => hget k n hn,
    hw.kept.cwd, ⟨m, hget _ _ hfile⟩, hstored.nodup⟩

theorem AtWork.put (h : AtWork w path la l es w₁) (hnodup : (Zip.names es').Nodup) (m : Nat) :
    AtWork w path la l es' { w₁ with disk := w₁.disk.put la (.file (.zip es') m) } :=
  ⟨h.working.put (.zip es') m, h.stored.put hnodup m⟩

/-- A deletion is made, or it is refused and changes nothing. -/
theorem AtWork.deleteEntries (h : AtWork w path la l es w₁) (doomed : List String) :
    (∃ w₂, native.deleteEntries path doomed w₁ = .ok () w₂ ∧
      AtWork w path la l (Zip.delete doomed es) w₂) ∨
    ∃ e, native.deleteEntries path doomed w₁ = .error e w₁ := by
  cases hok : rewriting w₁ path (Zip.deleting doomed) es with
  | ok u =>
    have hdelete := h.stored.deleteEntries (rewriting_ok.1 hok).1
    exact .inl ⟨_, hdelete, h.put (Zip.nodup_edit _ h.stored.nodup) _⟩
  | error e =>
    exact .inr ⟨_, Act.bind_of_error (editArchive_of_refused h.stored.openZip hok)⟩

theorem AtWork.rename (h : AtWork w path la l es w₁) (hbench : Bench w path la l)
    {source target : String} (hsource : Inner (openedBases (Act.scratchPath w) l) source)
    (htarget : Inner (openedBases (Act.scratchPath w) l) target)
    (hok : w₁.disk.rename source target = .ok d) : AtWork w path la l es { w₁ with disk := d } := by
  have htwins := h.working.kept.twins
  have hboth := htwins.rename hsource htarget
  rw [hok] at hboth
  have hkept : Kept (openedBases (Act.scratchPath w) l) l [la] (w.disk.opened l) d := by
    cases hboth with
    | ok hd => exact hd.left
  obtain ⟨k, t, n, hk, ht, -, hmoves⟩ := Disk.rename_ok hok
  have hkbelow := ((htwins.locate hsource false).2 k hk).below
  have htbelow := ((htwins.locate htarget false).2 t ht).below
  have hothers : ∀ j, w.disk.tree.get? j ≠ none → d.tree.get? j = w₁.disk.tree.get? j := fun j hj =>
    have hapart := hbench.opening.apart hj
    hmoves.others j (fun hpre => hapart (hkbelow.trans hpre)) fun hpre =>
      hapart (htbelow.trans hpre)
  refine ⟨⟨by rw [h.working.eq], hkept⟩,
    h.stored.mono hmoves.cwd (hothers la hbench.ne_none) fun j n _ hn => ?_⟩
  exact hothers j (by simp [hn])

theorem AtWork.addTree (h : AtWork w path la l es w₁) (base dirName : String)
    (hnodup : (Zip.names (treeAdded w₁.disk path base dirName es).1).Nodup) :
    ∃ w₂, native.addTree path base dirName w₁ =
      Act.ofExcept (treeAdded w₁.disk path base dirName es).2 w₂ ∧
      AtWork w path la l (treeAdded w₁.disk path base dirName es).1 w₂ := by
  obtain ⟨m, hadd⟩ := h.stored.addTree base dirName
  exact ⟨_, hadd, h.put hnodup m⟩

theorem keeps_extractEntries (h : Bench w path la l) (hscan : scanEntries path entries = .ok s) :
    Keeps (Working w l []) (native.extractEntries path s.entries (Act.scratchPath w)) := by
  obtain ⟨content, m, hfile⟩ := h.file
  refine Sdist.keeps_of_alike
    (alike_extractEntries h.working.kept.isBase (Disk.inner_openedPath _ l)
      (fun e e' he => ?_) fun name hname => exists_name_of_mem hscan hname)
  rw [h.find_kept he.left hfile, h.find_kept he.right hfile]

/-! ## The move -/

theorem not_inside_keptEntries (hscan : scanEntries path entries = .ok s)
    (hnew : IsDirName new) {n : String} (hn : n ∈ Zip.names (keptEntries c s sources entries)) :
    inside new n = false := by
  obtain ⟨hmem, hout⟩ := mem_names_keptEntries hscan hn
  rw [Bool.eq_false_iff]
  intro hinside
  rw [eq_of_inside hscan hnew hmem hinside, hout] at hinside
  exact absurd hinside (by simp)

/-- **Adding the tree** of what was found. -/
theorem AtWork.stops (h : AtWork w path la l (keptEntries c s sources entries) w₁)
    (hscan : scanEntries path entries = .ok s)
    (hfits : Fits ("/".intercalate (scratchBase w ++ [new]))) {n : Node}
    (hsome : w₁.disk.tree.get? (l ++ [new]) = some n)
    (hfound : Found c path s w new (w₁.disk.tree.below (l ++ [new]))) :
    (Zip.names (treeAdded w₁.disk path (Act.scratchPath w) new
      (keptEntries c s sources entries)).1).Nodup ∧
      Stops c path s sources entries w
        (treeAdded w₁.disk path (Act.scratchPath w) new (keptEntries c s sources entries)).1 := by
  have hkept := h.working.kept
  have hscratch := hkept.scratch (mem_openedBases w l)
  have hnew := hfound.isDirName
  have hplain : ∀ r, w₁.disk.tree.get? (l ++ new :: r) ≠ none → ∀ q ∈ new :: r, IsPlain q :=
    fun r hr => hkept.clear.plain (new :: r) hr
  have hadds := adds_treeAdded hscratch hplain hsome hfits path h.stored.nodup
  rw [intercalate_scratchBase] at hadds
  have hlisted : ∀ {p}, p ∈ w₁.disk.tree.below (l ++ [new]) ↔
      w₁.disk.tree.get? (l ++ new :: p.1) = some p.2 := by
    intro p
    rw [List.append_cons l new p.1]
    exact Tree.mem_below (hscratch.nodup_below [new]) (by simp)
  have hdistinct := Tree.nodup_below (hscratch.nodup_below [new])
  generalize treeAdded w₁.disk path _ new _ = x at hadds
  cases hadds with
  | all _ _ hfree => exact ⟨hfree, Or.inl (.added hfound)⟩
  | @overlong before after p e hnodes hlong hfree =>
    exact ⟨hfree, Or.inr (.overlong (hnodes ▸ hfound) hlong)⟩
  | @large before after p e hnodes hlarge hfree =>
    exact ⟨hfree, Or.inr (.large (hnodes ▸ hfound) hlarge)⟩
  | @taken before after p e hnodes hname hfree =>
    refine ⟨hfree, ?_⟩
    cases hdir : n.isDir with
    | true =>
      -- The names of a directory are all new.
      have hall := nodup_nodeEntries hnew.isFileName
        (fun p hp => hplain p.1 (by rw [hlisted.1 hp]; simp)) hdistinct
        (fun p hp => ?_) h.stored.nodup fun name hname => not_inside_keptEntries hscan hnew hname
      · rw [hnodes, List.map_append, List.map_cons, ← List.append_assoc, Zip.names_append,
          List.nodup_append] at hall
        exact absurd rfl (hall.2.2 _ hname _ (by simp [Zip.names]))
      · refine or_iff_not_imp_left.2 fun hp' => ?_
        have hget := hlisted.1 hp
        rw [Decidable.not_not.1 hp', hsome, Option.some.injEq] at hget
        rw [← hget, hdir]
    | false =>
      -- There is nothing before a file.
      rw [below_file hscratch hsome hdir] at hnodes
      obtain rfl : before = [] := by
        have hlength := congrArg List.length hnodes
        rw [List.length_singleton, List.length_append, List.length_cons] at hlength
        exact List.length_eq_zero_iff.1 (by omega)
      rw [List.map_nil, List.append_nil]
      exact Or.inl .deleted

theorem AtWork.isDirName (h : AtWork w path la l es w₁) (hfork : '/' ∉ c.forkDistName.toList)
    {found : String} (hok : findDistInfo w₁.disk (Act.scratchPath w) c.distName path = .ok found) :
    IsDirName (c.renamed ((Path.fileName? found).getD "")) := by
  obtain ⟨parent, y, -, hplain, hname, rfl⟩ :=
    exists_of_findDistInfo_kept h.working.kept (Disk.inner_openedPath (Act.scratchPath w) l) hok
  rw [Path.fileName?_join parent hplain, Option.getD_some]
  exact isDirName_renamed hfork ⟨hplain.slash, suffix_of_isDistInfoOf hname⟩

/-- A directory that was found gets its new name and is added. -/
def moveFound (archiver : Archiver) (path scratch found new : String) : Act String := do
  Act.change (·.rename found (Path.join scratch new))
  archiver.addTree path scratch new
  return new

theorem moveBy_eq (c : Config) (archiver : Archiver) (path : String) (s : Scan) (scratch : String) :
    moveBy c archiver path s scratch = archiver.extractEntries path s.entries scratch >>= fun _ =>
      archiver.deleteEntries path s.entries >>= fun _ => Act.disk >>= fun d =>
        Act.ofExcept (findDistInfo d scratch c.distName path) >>= fun found =>
          moveFound archiver path scratch found (c.renamed ((Path.fileName? found).getD "")) := rfl

theorem leaves_moveFound_error {archiver : Archiver} {scratch found : String} {e : IoError}
    (h : w₁.disk.rename found (Path.join scratch new) = .error e) :
    leaves (moveFound archiver path scratch found new) w₁ = w₁ :=
  Act.leaves_bind_of_error (Act.change_of_error h)

theorem leaves_moveFound_ok {archiver : Archiver} {scratch found : String}
    (h : w₁.disk.rename found (Path.join scratch new) = .ok d) :
    leaves (moveFound archiver path scratch found new) w₁ =
      leaves (archiver.addTree path scratch new) { w₁ with disk := d } := by
  refine (Act.leaves_bind_of_ok (Act.change_of_ok h)).trans ?_
  cases hadd : archiver.addTree path scratch new { w₁ with disk := d } with
  | ok u w₂ => exact (Act.leaves_bind_of_ok hadd).trans (Act.leaves_of_ok hadd).symm
  | error e w₂ => exact (Act.leaves_bind_of_error hadd).trans (Act.leaves_of_error hadd).symm

/-- **The directory that was found** is moved as far as its paths and its files fit. -/
theorem AtWork.leaves_moveFound (h : AtWork w path la l (keptEntries c s sources entries) w₁)
    (hbench : Bench w path la l) (hscan : scanEntries path entries = .ok s) {found : String}
    (hsource : Inner (openedBases (Act.scratchPath w) l) found)
    (hfound : ∀ k, w₁.disk.locate found false = .ok k → Found c path s w new (w₁.disk.tree.below k))
    (hnew : IsDirName new) :
    ∃ final, AtWork w path la l final
      (leaves (moveFound native path (Act.scratchPath w) found new) w₁) ∧
      Stops c path s sources entries w final := by
  have hisBase := isBase_scratch w
  have htarget := (Disk.inner_openedPath (Act.scratchPath w) l).join_name
    h.working.kept.isBase hnew.slash hnew.isPlain.ne_parent
  cases hrename : w₁.disk.rename found (Path.join (Act.scratchPath w) new) with
  | error e =>
    rw [leaves_moveFound_error hrename]
    exact ⟨_, h, Or.inl .deleted⟩
  | ok d =>
  rw [leaves_moveFound_ok hrename]
  have hrenamed := h.rename hbench hsource htarget hrename
  obtain ⟨k, t, n, hk, ht, hn, hmoves⟩ := Disk.rename_ok hrename
  have hjoin := Path.join_plain hisBase hnew.slash
  rw [intercalate_scratchBase] at hjoin
  have hfits : Fits ("/".intercalate (scratchBase w ++ [new])) := hjoin ▸ (Disk.fits_of_locate ht).1
  have hscratch := h.working.kept.scratch (mem_openedBases w l)
  have hlocate := hscratch.locate_name hnew.isPlain hfits false
  rw [← hjoin, ht, Except.ok.injEq] at hlocate
  subst hlocate
  -- What was below the old name is below the new one.
  obtain ⟨r, rfl⟩ := ((h.working.kept.twins.locate hsource false).2 k hk).below
  have hbelow : d.tree.below (l ++ [new]) = w₁.disk.tree.below (l ++ r) :=
    Tree.below_eq_below (hrenamed.working.kept.clear.nodup_below [new]) (by simp)
      (h.working.kept.clear.nodup_below r) (by simp [hbench.opening.ne_nil]) hmoves.taken
  have hsome := hmoves.taken []
  rw [List.append_nil, List.append_nil, hn] at hsome
  obtain ⟨hnodup, hstops⟩ := hrenamed.stops hscan hfits hsome (hbelow ▸ hfound _ hk)
  obtain ⟨w₂, hadd, hw₂⟩ := hrenamed.addTree (Act.scratchPath w) new hnodup
  refine ⟨_, ?_, hstops⟩
  have hleaves : leaves (native.addTree path (Act.scratchPath w) new)
      { w₁ with disk := d } = w₂ := by
    unfold leaves
    rw [hadd]
    exact Act.leaves_ofExcept _ w₂
  rw [hleaves]
  exact hw₂

theorem stops_filled (w : Workspace) :
    Stops c path s sources entries w (filledEntries c s sources entries) := by
  have hreplaced : AtBoundary c path s sources entries w _ :=
    .replaced (replacements c s sources).length
  rw [List.take_length, replaceEach_replacements] at hreplaced
  exact Or.inl hreplaced

/-- **The move**, however it ends. -/
theorem leaves_moveBy (h : Bench w path la l)
    (hstored : Stored w.disk w.disk path la (filledEntries c s sources entries))
    (hscan : scanEntries path entries = .ok s) (hfork : '/' ∉ c.forkDistName.toList) :
    ∃ final, AtWork w path la l final
      (leaves (moveBy c native path s (Act.scratchPath w)) (started w l)) ∧
      Stops c path s sources entries w final := by
  have hscratch := Disk.inner_openedPath (Act.scratchPath w) l
  have hunpacked := keeps_extractEntries h hscan _ h.working
  rw [moveBy_eq]
  cases hextract : native.extractEntries path s.entries (Act.scratchPath w) (started w l) with
  | error e w₁ =>
    rw [Act.leaves_bind_of_error hextract]
    rw [Act.leaves_of_error hextract] at hunpacked
    exact ⟨_, atWork_of_working h hstored hunpacked, stops_filled w⟩
  | ok u w₁ =>
  rw [Act.leaves_bind_of_ok hextract]
  rw [Act.leaves_of_ok hextract] at hunpacked
  have hfilled := atWork_of_working h hstored hunpacked
  rcases hfilled.deleteEntries s.entries with ⟨w₂, hdelete, hw₂⟩ | ⟨e, hdelete⟩
  case inr =>
    rw [Act.leaves_bind_of_error hdelete]
    exact ⟨_, hfilled, stops_filled w⟩
  rw [Act.leaves_bind_of_ok hdelete]
  rw [Act.leaves_bind_of_ok (Act.disk_ok.2 ⟨rfl, rfl⟩)]
  cases hfind : findDistInfo w₂.disk (Act.scratchPath w) c.distName path with
  | error e =>
    rw [Act.leaves_bind_of_error (by rfl)]
    exact ⟨_, hw₂, Or.inl .deleted⟩
  | ok found =>
  rw [Act.leaves_bind_of_ok (Act.ofExcept_ok.2 ⟨rfl, rfl⟩)]
  have hnew := hw₂.isDirName hfork hfind
  exact hw₂.leaves_moveFound h hscan (inner_of_findDistInfo hw₂.working.kept hscratch hfind)
    (fun k hk => .intro h.makeDir ((Act.bind_of_ok hextract).trans hdelete) hfind hk hnew) hnew

/-- The move and what it leaves when the scratch directory is gone. -/
theorem leaves_renameDistInfo (hwf : w.disk.tree.WellFormed) (hcwd : Tree.IsPlace w.disk.cwd)
    (hstored : Stored w.disk w.disk path la (filledEntries c s sources entries))
    (hscan : scanEntries path entries = .ok s) (hfork : '/' ∉ c.forkDistName.toList) :
    ∃ final, openZip path (leaves (renameDistInfo c native path s) w) =
      .ok final (leaves (renameDistInfo c native path s) w) ∧
      Stops c path s sources entries w final := by
  obtain ⟨mode, hfile⟩ := hstored.file
  rw [renameDistInfo_eq]
  rcases Sdist.bench_or_error hwf hcwd (hstored.locate true) ⟨_, mode, hfile⟩ with
    ⟨l, hbench⟩ | ⟨e, hmake⟩
  · obtain ⟨final, hwork, hstops⟩ := leaves_moveBy hbench hstored hscan hfork
    obtain ⟨m, hfinal⟩ := hwork.stored.file
    have hfind := hbench.find_cleared hwork.working hfinal
    rw [hbench.leaves_withScratch]
    generalize leaves (moveBy c native path s (Act.scratchPath w))
      (started w l) = w₁ at hwork hfind ⊢
    generalize Act.cleared w₁.disk (Act.scratchPath w) = d at hfind ⊢
    refine ⟨final, openZip_ok.2 ⟨rfl, la, .zip final, m, hfind, ?_⟩, hstops⟩
    rw [Content.zipEntries, Zip.visible_eq_self hwork.stored.nodup]
  · rw [Act.leaves_of_error (Act.withScratch_of_error _ hmake)]
    exact ⟨_, hstored.openZip, stops_filled w⟩

/-! ## The whole patch -/

theorem keeps_scan (P : Workspace → Prop) (path : String) : Keeps P (scan path) :=
  (keeps_openZip P path).bind fun _ => Act.keeps_ofExcept _

theorem keeps_verify (P : Workspace → Prop) (path : String) (paths : List String) :
    Keeps P (verify path paths) := by
  unfold verify
  refine (keeps_scan P path).bind fun s => (keeps_openZip P path).bind fun es =>
    (Act.keeps_ofExcept _).bind fun ds => ?_
  cases ds with
  | nil => exact Act.keeps_pure _
  | cons d ds => exact Act.keeps_throw _

theorem leaves_concluded (c : Config) (path : String) (s : Scan) (sources : List (String × Content))
    (w : Workspace) :
    leaves (concluded c path s sources) w = leaves (renameDistInfo c native path s) w := by
  unfold concluded
  cases hmove : renameDistInfo c native path s w with
  | error e w₁ => rw [Act.leaves_bind_of_error hmove, Act.leaves_of_error hmove]
  | ok dir w₁ =>
    rw [Act.leaves_bind_of_ok hmove, Act.leaves_of_ok hmove]
    exact keeps_verify (· = w₁) path _ w₁ rfl

theorem leaves_patch_of_not (h : ¬ ∃ s sources, scan path w = .ok s w ∧
    c.readSources w = .ok sources w) : leaves (patch c native path) w = w := by
  have hscanned := keeps_scan (· = w) path w rfl
  unfold patch
  cases hscan : scan path w with
  | error e w₁ =>
    rw [Act.leaves_of_error hscan] at hscanned
    rw [Act.leaves_bind_of_error hscan, hscanned]
  | ok s w₁ =>
  obtain ⟨rfl, -⟩ := scan_ok.1 hscan
  have hread := Sdist.keeps_readSources (· = w) c w rfl
  rw [Act.leaves_bind_of_ok hscan]
  cases hsources : c.readSources w with
  | error e w₁ =>
    rw [Act.leaves_of_error hsources] at hread
    rw [Act.leaves_bind_of_error hsources, hread]
  | ok sources w₁ =>
    obtain ⟨rfl, -⟩ := readSources_ok.1 hsources
    exact absurd ⟨s, sources, hscan, hsources⟩ h

theorem leaves_patch (hwf : w.disk.tree.WellFormed) (hcwd : Tree.IsPlace w.disk.cwd)
    (hfork : '/' ∉ c.forkDistName.toList) (hnamed : Named w.disk path la)
    (hopen : openZip path w = .ok entries w) (hscan : scanEntries path entries = .ok s)
    (hread : ReadFrom c w.disk sources) :
    ∃ final, openZip path (leaves (patch c native path) w) =
      .ok final (leaves (patch c native path) w) ∧
      Stops c path s sources entries
          { w with disk := written w.disk la (filledEntries c s sources entries) } final := by
  have hfilled : (Zip.names (filledEntries c s sources entries)).Nodup := by
    rw [names_filledEntries]
    exact nodup_of_openZip hopen
  have hleaves : leaves (patch c native path) w =
      leaves (replacing path (replacements c s sources) >>= fun _ =>
        concluded c path s sources) w := by
    unfold leaves
    rw [patch_eq hopen hscan hread]
  rw [hleaves]
  rcases (Holds.found hopen).replacing_cases hnamed (replacements c s sources) with
    ⟨hreplaced, -, -⟩ | ⟨e, n, w₂, herror, hholds⟩
  · rw [afterReplacing_replacements] at hreplaced
    rw [Act.leaves_bind_of_ok hreplaced, leaves_concluded]
    exact leaves_renameDistInfo (hnamed.wellFormed_written hwf _) hcwd
      (hnamed.stored_written hfilled) hscan hfork
  · rw [Act.leaves_bind_of_error herror]
    exact ⟨_, hholds.openZip hnamed, Or.inl (.replaced n)⟩

/-- **Where a patch stops.** If the archive or a tracked file cannot be read, nothing is changed.
Otherwise the archive has been taken to a boundary of the passes, or into the last one up to a path
that is too long or a file that is too large; what is foreign is there as it was, and no other
directory for metadata is there beside the old one. -/
theorem patch_stops (hwf : w.disk.tree.WellFormed) (hcwd : Tree.IsPlace w.disk.cwd)
    (hfork : '/' ∉ c.forkDistName.toList) :
    ((¬ ∃ s sources, scan path w = .ok s w ∧ c.readSources w = .ok sources w) →
      leaves (patch c native path) w = w) ∧
    ∀ entries s sources, openZip path w = .ok entries w → scanEntries path entries = .ok s →
      ReadFrom c w.disk sources →
      ∃ la final, Named w.disk path la ∧
        openZip path (leaves (patch c native path) w) = .ok final (leaves (patch c native path) w) ∧
        Stops c path s sources entries
          { w with disk := written w.disk la (filledEntries c s sources entries) } final ∧
        foreign c s.dir entries <+: foreign c s.dir final ∧
        ∀ dir, IsDirName dir → HasInside final s.dir → HasInside final dir → dir = s.dir := by
  refine ⟨leaves_patch_of_not, fun entries s sources hopen hscan hread => ?_⟩
  obtain ⟨la, hnamed⟩ := named_of_open hwf hopen
  obtain ⟨final, hfinal, hstops⟩ := leaves_patch hwf hcwd hfork hnamed hopen hscan hread
  exact ⟨la, final, hnamed, hfinal, hstops, hstops.foreign hscan hread,
    fun dir hdir => hstops.single hscan hdir⟩

theorem patch_stops_small : ∃ la final, Named smallWorkspace.disk "w" la ∧
    openZip "w" (leaves (patch smallConfig native "w") smallWorkspace) =
      .ok final (leaves (patch smallConfig native "w") smallWorkspace) ∧
    Stops smallConfig "w" smallScan [("a", .bytes [1])] smallEntries
      { smallWorkspace with
        disk := written smallWorkspace.disk la
          (filledEntries smallConfig smallScan [("a", .bytes [1])] smallEntries) } final ∧
    foreign smallConfig smallScan.dir smallEntries <+: foreign smallConfig smallScan.dir final ∧
    ∀ dir, IsDirName dir → HasInside final smallScan.dir → HasInside final dir →
      dir = smallScan.dir :=
  (patch_stops small_wellFormed (List.forall_mem_nil _) (by decide)).2 smallEntries
    smallScan [("a", .bytes [1])] small_open small_scan (.cons ⟨rfl, rfl⟩ .nil)

end Rebadge.Wheel
