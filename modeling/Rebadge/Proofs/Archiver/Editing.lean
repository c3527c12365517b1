import Rebadge.Proofs.Act
import Rebadge.Proofs.Disk.Scratch
import Rebadge.Proofs.Outcome
import Rebadge.Proofs.Tree.Opening
import Rebadge.Proofs.Zip

/-!
# Edits of an archive on disk

From its first edit on, an archive is at a location that its path leads to, whatever else happens on
the disk (`Stored`). There edits succeed and leave all else as it is.
-/

namespace Rebadge.Archiver.Native

open Rebadge.Tree (Extends Rewrites)

variable {w w' w₁ : Workspace} {d₀ d : Disk} {path : String} {la : Location}
  {entries : List (Zip.Entry Content)}

/-- An archive at a location of the disk, in a place that had a file before and that the path led
to. Nothing else that was there has changed. -/
structure Stored (d₀ d : Disk) (path : String) (la : Location)
    (entries : List (Zip.Entry Content)) : Prop where
  leads : ∀ follow, d₀.locate path follow = .ok la
  origin : ∃ c m, d₀.tree.get? la = some (.file c m)
  others : ∀ k n, k ≠ la → d₀.tree.get? k = some n → d.tree.get? k = some n
  cwd : d.cwd = d₀.cwd
  file : ∃ mode, d.tree.get? la = some (.file (.zip entries) mode)
  nodup : (Zip.names entries).Nodup

theorem Stored.extends (h : Stored d₀ d path la entries) : Extends d₀.tree d.tree := by
  intro k n hn
  by_cases hk : k = la
  · obtain ⟨c, m, horigin⟩ := h.origin
    obtain ⟨mode, hfile⟩ := h.file
    rw [hk, horigin, Option.some.injEq] at hn
    rw [hk, ← hn]
    exact ⟨_, hfile, .file _ _ _ _⟩
  · exact ⟨n, h.others k n hk hn, .refl n⟩

theorem Stored.locate (h : Stored d₀ d path la entries) (follow : Bool) :
    d.locate path follow = .ok la := by
  obtain ⟨c, m, horigin⟩ := h.origin
  exact Disk.locate_of_extends h.extends h.cwd (h.leads follow) (by simp [horigin])

theorem Stored.ne_nil (h : Stored d₀ d path la entries) : la ≠ [] := by
  obtain ⟨mode, hfile⟩ := h.file
  exact Tree.ne_nil_of_file hfile

/-! ## Operations -/

theorem Stored.openZip (h : Stored d₀ w.disk path la entries) : openZip path w = .ok entries w := by
  obtain ⟨mode, hfile⟩ := h.file
  refine openZip_ok.2 ⟨rfl, la, .zip entries, mode, Disk.find_eq (h.locate true) hfile, ?_⟩
  rw [Content.zipEntries, Zip.visible_eq_self h.nodup]

theorem Stored.put (h : Stored d₀ d path la entries) {more : List (Zip.Entry Content)}
    (hmore : (Zip.names more).Nodup) (mode : Nat) :
    Stored d₀ (d.put la (.file (.zip more) mode)) path la more := by
  refine ⟨h.leads, h.origin, fun k n hk hn => ?_, h.cwd, ⟨mode, ?_⟩, hmore⟩
  · show (d.tree.put la _).get? k = _
    rw [Tree.get?_put h.ne_nil, if_neg hk]
    exact h.others k n hk hn
  · show (d.tree.put la _).get? la = _
    rw [Tree.get?_put h.ne_nil, if_pos rfl]

theorem Stored.mono (h : Stored d₀ d path la entries) {d' : Disk} (hcwd : d'.cwd = d.cwd)
    (hfile : d'.tree.get? la = d.tree.get? la)
    (hothers : ∀ k n, k ≠ la → d₀.tree.get? k = some n → d'.tree.get? k = d.tree.get? k) :
    Stored d₀ d' path la entries := by
  refine ⟨h.leads, h.origin, fun k n hk hn => ?_,
    hcwd.trans h.cwd, by rw [hfile]; exact h.file, h.nodup⟩
  rw [hothers k n hk hn]
  exact h.others k n hk hn

theorem Stored.edit (h : Stored d₀ w.disk path la entries) {action : String → Zip.Action Content}
    (hok : rewriting w path action entries = .ok ()) : editArchive path action w = .ok entries
      { w with
        disk := w.disk.put la (.file (.zip (Zip.edit action entries)) Disk.privateMode) } := by
  obtain ⟨mode, hfile⟩ := h.file
  refine editArchive_ok.2 ⟨h.openZip, hok, _, Disk.replace_ok.2 ⟨la, h.locate false, ?_, rfl⟩, rfl⟩
  simp [hfile]

theorem editArchive_of_refused {action : String → Zip.Action Content} {e : IoError}
    (hopen : Native.openZip path w = .ok entries w)
    (h : rewriting w path action entries = .error e) :
    editArchive path action w = .error (.io e) w := by
  have hget : (get : Act Workspace) w = .ok w w := rfl
  unfold editArchive
  rw [Act.bind_of_ok hopen, Act.bind_of_ok hget, h]
  rfl

theorem Stored.write (h : Stored d₀ d path la entries) (c : Content) :
    ∃ mode, d.write path c = .ok (d.put la (.file c mode)) := by
  obtain ⟨mode, hfile⟩ := h.file
  exact ⟨mode, Disk.write_ok.2 ⟨la, h.locate true, Or.inr ⟨_, mode, hfile, rfl⟩⟩⟩

theorem fits_deleting (doomed : List String) (entries : List (Zip.Entry Content)) :
    fits (Zip.deleting doomed) entries = true := by
  refine List.all_eq_true.2 fun e _ => ?_
  unfold Zip.deleting
  split <;> rfl

/-- The size of new data counts only where there is an entry for it. -/
theorem fits_replacing {name : String} {data : Content} :
    fits (Zip.replacing name data) entries = true ↔
      (name ∈ Zip.names entries → data.fitsEntry = true) := by
  unfold fits
  rw [List.all_eq_true]
  constructor
  · intro h hmem
    obtain ⟨e, he, rfl⟩ := Zip.exists_of_mem_names hmem
    have hfits := h e he
    unfold Zip.replacing at hfits
    rwa [if_pos rfl] at hfits
  · intro h e he
    unfold Zip.replacing
    split
    · next hname => exact h (hname ▸ Zip.mem_names he)
    · rfl

theorem Stored.deleteEntries (h : Stored d₀ w.disk path la entries) {doomed : List String}
    (hgrants : Grants w path (Zip.delete doomed entries)) : deleteEntries path doomed w = .ok ()
      { w with
        disk := w.disk.put la (.file (.zip (Zip.delete doomed entries)) Disk.privateMode) } :=
  deleteEntries_ok.2 ⟨entries, h.edit (rewriting_ok.2 ⟨hgrants, fits_deleting doomed entries⟩)⟩

theorem Stored.addTree (h : Stored d₀ w.disk path la entries) (base dirName : String) :
    ∃ m, addTree path base dirName w = Act.ofExcept (treeAdded w.disk path base dirName entries).2
      { w with
        disk := w.disk.put la
          (.file (.zip (treeAdded w.disk path base dirName entries).1) m) } := by
  obtain ⟨mode, hfile⟩ := h.file
  have hread : w.disk.read path = .ok (.zip entries) :=
    Disk.read_ok.2 ⟨la, mode, Disk.find_eq (h.locate true) hfile⟩
  have hlook : Act.look (·.read path) w = .ok (.zip entries) w := Act.look_ok.2 ⟨hread, rfl⟩
  have hentries : Act.ofExcept ((Content.zip entries).zipEntries.mapError .zip) w =
      .ok entries w := by
    rw [Content.zipEntries, Zip.visible_eq_self h.nodup]
    rfl
  obtain ⟨m, hwrite⟩ := h.write (.zip (treeAdded w.disk path base dirName entries).1)
  refine ⟨m, ?_⟩
  unfold Native.addTree
  rw [Act.bind_of_ok hlook, Act.bind_of_ok hentries]
  have hchange : Act.change (·.write path (.zip (treeAdded w.disk path base dirName entries).1)) w =
      .ok () _ :=
    Act.change_ok.2 ⟨_, hwrite, rfl⟩
  exact Act.bind_of_ok hchange

/-! ## Several replacements -/

/-- The entries with several of them replaced, one after the other. -/
def replaceEach (sources : List (String × Content)) (entries : List (Zip.Entry Content)) :
    List (Zip.Entry Content) :=
  sources.foldl (fun es p => Zip.replace p.1 p.2 es) entries

theorem names_replace (name : String) (content : Content) (entries : List (Zip.Entry Content)) :
    Zip.names (Zip.replace name content entries) = Zip.names entries := by
  unfold Zip.replace
  rw [Zip.names_edit, List.filter_eq_self]
  intro n _
  unfold Zip.replacing
  split <;> rfl

theorem names_replaceEach (sources : List (String × Content)) (entries : List (Zip.Entry Content)) :
    Zip.names (replaceEach sources entries) = Zip.names entries := by
  induction sources generalizing entries with
  | nil => rfl
  | cons p sources ih => exact (ih _).trans (names_replace p.1 p.2 entries)

/-- The act that replaces several entries. -/
def replacing (path : String) (sources : List (String × Content)) : Act Unit :=
  sources.forM fun p => Native.replaceEntry path p.1 p.2

/-! ## The first edit -/

theorem keeps_openZip (P : Workspace → Prop) (path : String) :
    Act.Keeps P (Native.openZip path) := by
  unfold Native.openZip
  refine (Act.keeps_look _).bind fun p => ?_
  split
  · exact Act.keeps_ofExcept _
  · exact Act.keeps_throw _

theorem nodup_of_zipEntries {c : Content} (h : c.zipEntries = .ok entries) :
    (Zip.names entries).Nodup := by
  cases c with
  | zip es =>
    obtain rfl := Except.ok.inj h
    exact Zip.nodup_visible es
  | tar members => exact absurd h (by simp [Content.zipEntries])
  | bytes data =>
    simp only [Content.zipEntries] at h
    split at h
    · exact absurd h (by simp)
    · split at h
      · exact absurd h (by simp)
      · rw [← Except.ok.inj h]
        exact List.nodup_nil

theorem nodup_of_openZip (h : Native.openZip path w = .ok entries w') :
    (Zip.names entries).Nodup := by
  obtain ⟨-, l, c, mode, -, hzip⟩ := openZip_ok.1 h
  exact nodup_of_zipEntries hzip

/-- What the path names itself is a file, or a link to one. -/
structure Named (d : Disk) (path : String) (la : Location) : Prop where
  locate : d.locate path false = .ok la
  present : d.tree.get? la ≠ none
  not_dir : ∀ m, d.tree.get? la ≠ some (.dir m)
  leads : Tree.LeadsToFile d.tree la

theorem named_of_open (hwf : w.disk.tree.WellFormed)
    (hopen : Native.openZip path w = .ok entries w) : ∃ la, Named w.disk path la := by
  obtain ⟨-, k, c, mode, hfind, -⟩ := openZip_ok.1 hopen
  obtain ⟨hk, hfile⟩ := Disk.find_ok.1 hfind
  obtain ⟨hfits, htrue⟩ := Disk.fits_of_locate hk
  obtain ⟨la, hfalse, hla⟩ := Tree.walk_nofollow htrue
  refine ⟨la, ?_, ?_, ?_,
    Tree.leadsToFile_of_walk hwf (by simp [Text.split, Chars.split_ne_nil]) hfalse htrue hfile⟩
  · rw [Disk.locate_eq hfits, hfalse]
    rfl
  · rcases hla with rfl | ⟨target, hlink⟩
    · simp [hfile]
    · simp [hlink]
  · rcases hla with rfl | ⟨target, hlink⟩
    · simp [hfile]
    · simp [hlink]

theorem Named.ne_nil (h : Named d path la) : la ≠ [] := Tree.ne_nil_of_not_dir h.not_dir

theorem Named.refiled (h : Named d path la) (c : Content) (m : Nat) :
    Tree.Refiled la d.tree (d.put la (.file c m)).tree := by
  have hget : ∀ k, (d.put la (.file c m)).tree.get? k = if k = la then some (.file c m)
      else d.tree.get? k :=
    Tree.get?_put h.ne_nil _
  exact ⟨fun k hk => by rw [hget, if_neg hk], h.present, h.not_dir, c, m, by rw [hget, if_pos rfl]⟩

/-- **An archive that is written** is at a fixed place from then on. -/
theorem Named.stored (h : Named d path la) (hnodup : (Zip.names entries).Nodup) (m : Nat) :
    Stored (d.put la (.file (.zip entries) m))
    (d.put la (.file (.zip entries) m)) path la entries := by
  have hrefiled := h.refiled (.zip entries) m
  have hself : (d.put la (.file (.zip entries) m)).tree.get? la = some (.file (.zip entries) m) :=
    (Tree.get?_put h.ne_nil _ la).trans (if_pos rfl)
  obtain ⟨hfits, hwalk⟩ := Disk.fits_of_locate h.locate
  refine ⟨fun follow => ?_, ⟨_, m, hself⟩, fun _ _ _ hn => hn, rfl, ⟨m, hself⟩, hnodup⟩
  rw [Disk.locate_eq hfits]
  exact congrArg (Except.mapError IoError.os)
    (Tree.walk_replaced hrefiled.rewrites h.present h.leads hwalk follow)

/-! ## Several edits -/

/-- The disk with an archive written to a location. -/
def written (d : Disk) (la : Location) (entries : List (Zip.Entry Content)) : Disk :=
  d.put la (.file (.zip entries) Disk.privateMode)

theorem written_written (d : Disk) (la : Location) (es es' : List (Zip.Entry Content)) :
    written (written d la es) la es' = written d la es' := by
  unfold written Disk.put
  rw [Tree.put_put]

theorem Named.stored_written (h : Named d path la) (hnodup : (Zip.names entries).Nodup) :
    Stored (written d la entries) (written d la entries) path la entries := h.stored hnodup _

theorem Named.wellFormed_written (h : Named d path la) (hwf : d.tree.WellFormed)
    (entries : List (Zip.Entry Content)) : (written d la entries).tree.WellFormed :=
  hwf.put_file (Or.inl h.present) h.not_dir _ _

theorem Named.locate_written (h : Named d path la) (es : List (Zip.Entry Content))
    {p : String} {follow : Bool} {k : Location} (hlocate : d.locate p follow = .ok k)
    (hk : ∀ c m, d.tree.get? k ≠ some (.file c m)) :
    (written d la es).locate p follow = .ok k := by
  obtain ⟨hfits, hwalk⟩ := Disk.fits_of_locate hlocate
  have hrefiled := h.refiled (.zip es) Disk.privateMode
  rw [Disk.locate_eq hfits]
  exact congrArg (Except.mapError IoError.os) (Tree.walk_refiled hrefiled h.leads hwalk hk)

theorem Named.list_written (h : Named d path la) (es : List (Zip.Entry Content)) {p : String}
    (hdir : d.isDir p = true) : (written d la es).list p = d.list p := by
  obtain ⟨k, m, hfind⟩ := Disk.isDir_iff.1 hdir
  obtain ⟨hlocate, hget⟩ := Disk.find_ok.1 hfind
  have hkeys : (written d la es).tree.keys = d.tree.keys := by
    refine (Tree.keys_put _ _ _).trans (if_pos ?_)
    exact Decidable.byContradiction fun hnot => h.present ((Tree.get?_eq_none_iff h.ne_nil).2 hnot)
  have hne : k ≠ la := by
    rintro rfl
    exact h.not_dir m hget
  have hget' : (written d la es).tree.get? k = some (.dir m) := by
    rw [← hget]
    exact (h.refiled (.zip es) Disk.privateMode).others k hne
  have hlocate' := h.locate_written es hlocate (by simp [hget])
  rw [Disk.list_ok.2 ⟨k, m, Disk.find_eq hlocate' hget', rfl⟩, Disk.list_ok.2 ⟨k, m, hfind, rfl⟩,
    Tree.names_congr hkeys]

/-- The archive at a path has certain entries: it was found with them, or an edit has written
them. -/
inductive Holds (w : Workspace) (path : String) (la : Location) :
    List (Zip.Entry Content) → Workspace → Prop where
  | found {entries : List (Zip.Entry Content)} (hopen : Native.openZip path w = .ok entries w) :
    Holds w path la entries w
  | edited {entries : List (Zip.Entry Content)} (hnodup : (Zip.names entries).Nodup) :
    Holds w path la entries { w with disk := written w.disk la entries }

theorem Holds.nodup (h : Holds w path la entries w₁) : (Zip.names entries).Nodup := by
  cases h with
  | found hopen => exact nodup_of_openZip hopen
  | edited hnodup => exact hnodup

theorem Holds.openZip (h : Holds w path la entries w₁) (hnamed : Named w.disk path la) :
    Native.openZip path w₁ = .ok entries w₁ := by
  cases h with
  | found hopen => exact hopen
  | edited hnodup =>
    exact Stored.openZip (w := { w with disk := written w.disk la entries })
      (hnamed.stored_written hnodup)

/-- What the system says does not depend on the entries that are there. -/
theorem Holds.rewriting (h : Holds w path la entries w₁) (action : String → Zip.Action Content) :
    rewriting w₁ path action entries = rewriting w path action entries := by
  cases h <;> rfl

/-- **An edit that is granted** is made. -/
theorem Holds.editArchive (h : Holds w path la entries w₁) (hnamed : Named w.disk path la)
    {action : String → Zip.Action Content} (hok : Native.rewriting w path action entries = .ok ()) :
    Native.editArchive path action w₁ =
      .ok entries { w with disk := written w.disk la (Zip.edit action entries) } := by
  cases h with
  | found hopen =>
    exact editArchive_ok.2 ⟨hopen, hok, _,
      Disk.replace_ok.2 ⟨la, hnamed.locate, hnamed.not_dir, rfl⟩, rfl⟩
  | edited hnodup =>
    have hwritten := written_written w.disk la entries (Zip.edit action entries)
    rw [Stored.edit (w := { w with disk := written w.disk la entries })
      (hnamed.stored_written hnodup) hok]
    exact congrArg (fun d => EStateM.Result.ok entries { w with disk := d }) hwritten

theorem Holds.editArchive_refused (h : Holds w path la entries w₁) (hnamed : Named w.disk path la)
    {action : String → Zip.Action Content} {e : IoError}
    (hrefused : Native.rewriting w path action entries = .error e) :
    Native.editArchive path action w₁ = .error (.io e) w₁ :=
  editArchive_of_refused (h.openZip hnamed) ((h.rewriting action).trans hrefused)

/-- A replacement that is granted is made, also where it is an error that no entry has the name. -/
theorem Holds.replaceEntry (h : Holds w path la entries w₁) (hnamed : Named w.disk path la)
    {name : String} {content : Content}
    (hok : Native.rewriting w path (Zip.replacing name content) entries = .ok ()) :
    Native.replaceEntry path name content w₁ =
      if name ∈ Zip.names entries then
        .ok () { w with disk := written w.disk la (Zip.replace name content entries) }
      else .error (.malformed path (.noEntry name))
        { w with disk := written w.disk la (Zip.replace name content entries) } := by
  unfold Native.replaceEntry
  rw [Act.bind_of_ok (h.editArchive hnamed hok)]
  by_cases hname : name ∈ Zip.names entries
  · rw [if_neg (not_not_intro hname), if_pos hname]
    rfl
  · rw [if_pos hname, if_neg hname]
    rfl

theorem Holds.replaceEntry_refused (h : Holds w path la entries w₁) (hnamed : Named w.disk path la)
    {name : String} {content : Content} {e : IoError}
    (hrefused : Native.rewriting w path (Zip.replacing name content) entries = .error e) :
    Native.replaceEntry path name content w₁ = .error (.io e) w₁ :=
  Act.bind_of_error (h.editArchive_refused hnamed hrefused)

theorem Holds.deleteEntries (h : Holds w path la entries w₁) (hnamed : Named w.disk path la)
    {doomed : List String} (hgrants : Grants w path (Zip.delete doomed entries)) :
    Native.deleteEntries path doomed w₁ =
      .ok () { w with disk := written w.disk la (Zip.delete doomed entries) } :=
  deleteEntries_ok.2
    ⟨entries, h.editArchive hnamed (rewriting_ok.2 ⟨hgrants, fits_deleting doomed entries⟩)⟩

/-! ## Several replacements in a row -/

/-- Each of several replacements is granted once those before it are made. -/
def EachGranted (w : Workspace) (path : String) :
    List (String × Content) → List (Zip.Entry Content) → Prop
  | [], _ => True
  | p :: ps, entries => Native.rewriting w path (Zip.replacing p.1 p.2) entries = .ok () ∧
    EachGranted w path ps (Zip.replace p.1 p.2 entries)

/-- They are granted if the system takes the archive with the first of them, however many these are,
and all new data fits. -/
theorem eachGranted {sources : List (String × Content)}
    (hgrants : ∀ n, Grants w path (replaceEach (sources.take (n + 1)) entries))
    (hfits : ∀ p ∈ sources, p.2.fitsEntry = true) : EachGranted w path sources entries := by
  induction sources generalizing entries with
  | nil => exact trivial
  | cons p sources ih =>
    obtain ⟨hfirst, hrest⟩ := List.forall_mem_cons.1 hfits
    have hone : Grants w path (Zip.replace p.1 p.2 entries) := hgrants 0
    exact ⟨rewriting_ok.2 ⟨hone, fits_replacing.2 fun _ => hfirst⟩,
      ih (fun n => hgrants (n + 1)) hrest⟩

theorem EachGranted.fits {sources : List (String × Content)}
    (h : EachGranted w path sources entries) (hmem : ∀ p ∈ sources, p.1 ∈ Zip.names entries) :
    ∀ p ∈ sources, p.2.fitsEntry = true := by
  induction sources generalizing entries with
  | nil => simp
  | cons p sources ih =>
    obtain ⟨hok, hrest⟩ := h
    obtain ⟨hfirst, hlater⟩ := List.forall_mem_cons.1 hmem
    refine List.forall_mem_cons.2 ⟨fits_replacing.1 (rewriting_ok.1 hok).2 hfirst, ih hrest ?_⟩
    rwa [names_replace]

/-- The workspace after several replacements. -/
def afterReplacing (w w₁ : Workspace) (la : Location) (entries : List (Zip.Entry Content)) :
    List (String × Content) → Workspace
  | [] => w₁
  | p :: ps => { w with disk := written w.disk la (replaceEach (p :: ps) entries) }

theorem afterReplacing_cons (w w₁ : Workspace) (la : Location)
    (entries : List (Zip.Entry Content)) (p : String × Content) (ps : List (String × Content)) :
    afterReplacing w { w with disk := written w.disk la (Zip.replace p.1 p.2 entries) } la
        (Zip.replace p.1 p.2 entries) ps = afterReplacing w w₁ la entries (p :: ps) := by
  cases ps <;> rfl

theorem Holds.replaceEntry_cases (h : Holds w path la entries w₁) (hnamed : Named w.disk path la)
    (name : String) (content : Content) :
    (name ∈ Zip.names entries ∧
      Native.rewriting w path (Zip.replacing name content) entries = .ok () ∧
      Native.replaceEntry path name content w₁ =
        .ok () { w with disk := written w.disk la (Zip.replace name content entries) }) ∨
    (∃ e, Native.replaceEntry path name content w₁ =
        .error e { w with disk := written w.disk la (Zip.replace name content entries) }) ∨
    ∃ e, Native.replaceEntry path name content w₁ = .error e w₁ := by
  cases hok : Native.rewriting w path (Zip.replacing name content) entries with
  | error e => exact .inr (.inr ⟨_, h.replaceEntry_refused hnamed hok⟩)
  | ok u =>
    have hreplace := h.replaceEntry hnamed hok
    by_cases hname : name ∈ Zip.names entries
    · rw [if_pos hname] at hreplace
      exact .inl ⟨hname, rfl, hreplace⟩
    · rw [if_neg hname] at hreplace
      exact .inr (.inl ⟨_, hreplace⟩)

/-- Whether a replacement is made or not, no other archive is left. -/
theorem Holds.leaves_replaceEntry (h : Holds w path la entries w₁) (hnamed : Named w.disk path la)
    (name : String) (content : Content) :
    Act.leaves (Native.replaceEntry path name content) w₁ =
      { w with disk := written w.disk la (Zip.replace name content entries) } ∨
    Act.leaves (Native.replaceEntry path name content) w₁ = w₁ := by
  rcases h.replaceEntry_cases hnamed name content with ⟨-, -, hstep⟩ | ⟨e, hstep⟩ | ⟨e, hstep⟩
  · exact .inl (Act.leaves_of_ok hstep)
  · exact .inl (Act.leaves_of_error hstep)
  · exact .inr (Act.leaves_of_error hstep)

/-- **Several replacements.** They are made if each is granted and the archive has all entries. -/
theorem Holds.replacing_ok (h : Holds w path la entries w₁) (hnamed : Named w.disk path la)
    {sources : List (String × Content)} (hmem : ∀ p ∈ sources, p.1 ∈ Zip.names entries)
    (hgranted : EachGranted w path sources entries) :
    replacing path sources w₁ = .ok () (afterReplacing w w₁ la entries sources) := by
  induction sources generalizing entries w₁ with
  | nil => rfl
  | cons p sources ih =>
    obtain ⟨hfirst, hrest⟩ := List.forall_mem_cons.1 hmem
    have hstep := h.replaceEntry hnamed hgranted.1
    rw [if_pos hfirst] at hstep
    have hedited : Holds w path la (Zip.replace p.1 p.2 entries) _ :=
      .edited (Zip.nodup_edit _ h.nodup)
    rw [← afterReplacing_cons]
    exact (Act.bind_of_ok hstep).trans (ih hedited (by rwa [names_replace]) hgranted.2)

/-- However they end, the first of them are made; if they succeed, all are granted and made. -/
theorem Holds.replacing_cases (h : Holds w path la entries w₁) (hnamed : Named w.disk path la)
    (sources : List (String × Content)) :
    (replacing path sources w₁ = .ok () (afterReplacing w w₁ la entries sources) ∧
      (∀ p ∈ sources, p.1 ∈ Zip.names entries) ∧ EachGranted w path sources entries) ∨
    ∃ e n w₂, replacing path sources w₁ = .error e w₂ ∧
      Holds w path la (replaceEach (sources.take n) entries) w₂ := by
  induction sources generalizing entries w₁ with
  | nil => exact .inl ⟨rfl, by simp, trivial⟩
  | cons p sources ih =>
    have hedited : Holds w path la (Zip.replace p.1 p.2 entries)
      { w with disk := written w.disk la (Zip.replace p.1 p.2 entries) } :=
      .edited (Zip.nodup_edit _ h.nodup)
    rcases h.replaceEntry_cases hnamed p.1 p.2 with
      ⟨hname, hgranted, hstep⟩ | ⟨e, hstep⟩ | ⟨e, hstep⟩
    · rcases ih hedited with ⟨hok, hmem, hrest⟩ | ⟨e, n, w₂, herror, hholds⟩
      · rw [names_replace] at hmem
        rw [← afterReplacing_cons]
        exact .inl ⟨(Act.bind_of_ok hstep).trans hok, List.forall_mem_cons.2 ⟨hname, hmem⟩,
          hgranted, hrest⟩
      · exact .inr ⟨e, n + 1, w₂, (Act.bind_of_ok hstep).trans herror, hholds⟩
    · exact .inr ⟨e, 1, _, Act.bind_of_error hstep, hedited⟩
    · exact .inr ⟨e, 0, _, Act.bind_of_error hstep, h⟩

end Rebadge.Archiver.Native
