import Rebadge.Proofs.Archiver.Editing
import Rebadge.Proofs.Outcome

/-!
# The laws of edits

An archive is a store of data by names. Its entries keep their order, every edit goes over all of
them, and what an edit leaves alone is copied with a mode that it may not have had before. Since the
mode of a copy is that of its own copy, edits of entries are a monoid that acts on names
(`Zip.edit_edit`), and the laws of a store follow from laws of actions on one name. On disk an edit
puts the archive in the place that its path names, where the next edit finds it, so the laws hold
between the workspaces that edits leave behind, whatever else is there (`edits_lawful`).
-/

namespace Rebadge.Zip

variable {α : Type} {entries : List (Entry α)}

/-! ## Laws of entries -/

theorem replace_replace (name : String) (c d : α) (entries : List (Entry α)) :
    replace name d (replace name c entries) = replace name d entries := by
  unfold replace
  rw [edit_edit]
  refine edit_congr fun n _ => ?_
  unfold replacing
  by_cases hn : n = name
  · rw [if_pos hn, if_pos hn]
    rfl
  · rw [if_neg hn, if_neg hn]
    rfl

theorem replace_comm {e f : String} (h : e ≠ f) (c d : α) (entries : List (Entry α)) :
    replace f d (replace e c entries) = replace e c (replace f d entries) := by
  unfold replace
  rw [edit_edit, edit_edit]
  refine edit_congr fun n _ => ?_
  unfold replacing
  by_cases he : n = e
  · have hf : n ≠ f := he.trans_ne h
    rw [if_pos he, if_neg hf]
    rfl
  · rw [if_neg he]
    by_cases hf : n = f
    · rw [if_pos hf]
      rfl
    · rw [if_neg hf]

theorem delete_replace {name : String} {doomed : List String} (h : name ∈ doomed) (c : α)
    (entries : List (Entry α)) :
    delete doomed (replace name c entries) = delete doomed entries := by
  unfold delete replace
  rw [edit_edit]
  refine edit_congr fun n _ => ?_
  unfold replacing deleting
  by_cases hn : n = name
  · rw [if_pos hn, hn, if_pos h]
    rfl
  · rw [if_neg hn]
    rfl

theorem delete_delete (doomed more : List String) (entries : List (Entry α)) :
    delete more (delete doomed entries) = delete (doomed ++ more) entries := by
  unfold delete
  rw [edit_edit]
  refine edit_congr fun n _ => ?_
  unfold deleting
  by_cases hn : n ∈ doomed
  · rw [if_pos hn, if_pos (List.mem_append_left more hn)]
    rfl
  · have hmem : n ∈ doomed ++ more ↔ n ∈ more := by simp [hn]
    simp only [if_neg hn, hmem]
    rfl

/-! ## What becomes of an entry -/

/-- The permissions of a mode, or read permission for all where there is none. -/
def permissions (mode : Option Nat) : Nat := mode.getD 0o644 % 0o1000

theorem permissions_regularMode (mode : Option Nat) :
    permissions (some (regularMode mode)) = permissions mode := by
  unfold permissions regularMode
  rw [Option.getD_some, Nat.add_mod, Nat.mod_mod]
  omega

/-- An entry that no edit is about, before and after. Its data is the same even if it does not agree
with its checksum. -/
structure Copied (old new : Entry α) : Prop where
  name : new.name = old.name
  data : new.data = old.data
  intact : new.intact = old.intact
  method : new.method = old.method
  mode : ∃ m, new.mode = some m ∧ permissions (some m) = permissions old.mode

/-- An entry before and after it got new data. -/
structure Refilled (data : α) (old new : Entry α) : Prop where
  name : new.name = old.name
  data : new.data = data
  intact : new.intact = true
  mode : ∃ m, new.mode = some m ∧ permissions (some m) = permissions old.mode

/-- What a replacement at a name does to an entry. -/
structure Filed (name : String) (data : α) (old new : Entry α) : Prop where
  at_name : old.name = name → Refilled data old new
  elsewhere : old.name ≠ name → Copied old new

theorem exists_apply_replacing (name : String) (data : α) (e : Entry α) :
    ∃ e', (replacing name data e.name).apply e = some e' ∧ Filed name data e e' := by
  have hmode : ∃ m, some (regularMode e.mode) = some m ∧
      permissions (some m) = permissions e.mode :=
    ⟨_, rfl, permissions_regularMode e.mode⟩
  unfold replacing
  by_cases he : e.name = name
  · rw [if_pos he]
    exact ⟨_, rfl, fun _ => ⟨rfl, rfl, rfl, hmode⟩, fun hne => absurd he hne⟩
  · rw [if_neg he]
    exact ⟨_, rfl, fun heq => absurd heq he, fun _ => ⟨rfl, rfl, rfl, rfl, hmode⟩⟩

theorem forall₂_replace (name : String) (data : α) (entries : List (Entry α)) :
    List.Forall₂ (Filed name data) entries (replace name data entries) := by
  induction entries with
  | nil => exact .nil
  | cons e rest ih =>
    obtain ⟨e', happly, hfiled⟩ := exists_apply_replacing name data e
    unfold replace at ih ⊢
    rw [edit_cons_of_some happly]
    exact .cons hfiled ih

/-- Where no entry has the name, only modes change. -/
theorem forall₂_replace_of_not_mem {name : String} (h : name ∉ names entries) (data : α) :
    List.Forall₂ Copied entries (replace name data entries) := by
  induction entries with
  | nil => exact .nil
  | cons e rest ih =>
    rw [names_cons, List.mem_cons, not_or] at h
    obtain ⟨e', happly, hfiled⟩ := exists_apply_replacing name data e
    unfold replace at ih ⊢
    rw [edit_cons_of_some happly]
    exact .cons (hfiled.elsewhere (Ne.symm h.1)) (ih h.2)

end Rebadge.Zip

namespace Rebadge.Archiver.Native

open Act (leaves)

variable {w w' w₁ : Workspace} {path name : String} {la : Location} {data : Content}
  {entries : List (Zip.Entry Content)}

/-! ## Edits that fail -/

theorem editArchive_error {action : String → Zip.Action Content} {err : Failure}
    (h : editArchive path action w = .error err w') : w' = w := by
  have hkept := keeps_openZip (· = w) path w rfl
  cases hopen : Native.openZip path w with
  | error e w₁ =>
    rw [Act.leaves_of_error hopen] at hkept
    have hedit : editArchive path action w = .error e w₁ := Act.bind_of_error hopen
    rw [h] at hedit
    exact (EStateM.Result.error.inj hedit).2.trans hkept
  | ok entries w₁ =>
    rw [Act.leaves_of_ok hopen] at hkept
    subst hkept
    cases hok : rewriting w₁ path action entries with
    | error e =>
      rw [editArchive_of_refused hopen hok] at h
      exact (EStateM.Result.error.inj h).2.symm
    | ok u =>
      cases hput : w₁.disk.replace path (.zip (Zip.edit action entries)) with
      | ok d =>
        rw [editArchive_ok.2 ⟨hopen, hok, d, hput, rfl⟩] at h
        exact absurd h (by simp)
      | error e =>
        have hget : (get : Act Workspace) w₁ = .ok w₁ w₁ := rfl
        unfold editArchive at h
        rw [Act.bind_of_ok hopen, Act.bind_of_ok hget, hok] at h
        have hchange : Act.change (·.replace path (.zip (Zip.edit action entries))) w₁ =
          .error (.io e) w₁ := Act.change_of_error hput
        replace h := (Act.bind_of_error hchange).symm.trans h
        exact (EStateM.Result.error.inj h).2.symm

theorem replaceEntry_error {err : Failure}
    (h : Native.replaceEntry path name data w = .error err w')
    (hne : err ≠ .malformed path (.noEntry name)) : w' = w := by
  unfold Native.replaceEntry at h
  cases hedit : editArchive path (Zip.replacing name data) w with
  | error e w₁ =>
    rw [Act.bind_of_error hedit] at h
    exact (EStateM.Result.error.inj h).2.symm.trans (editArchive_error hedit)
  | ok entries w₁ =>
    rw [Act.bind_of_ok hedit] at h
    split at h
    · exact absurd (EStateM.Result.error.inj h).1.symm hne
    · exact absurd h (by simp [pure, EStateM.pure])

theorem deleteEntries_error {doomed : List String} {err : Failure}
    (h : Native.deleteEntries path doomed w = .error err w') : w' = w := by
  cases hedit : editArchive path (Zip.deleting doomed) w with
  | error e w₁ =>
    have hdelete : Native.deleteEntries path doomed w = .error e w₁ := Act.bind_of_error hedit
    rw [h] at hdelete
    exact (EStateM.Result.error.inj hdelete).2.trans (editArchive_error hedit)
  | ok entries w₁ =>
    have hdelete : Native.deleteEntries path doomed w = .ok () w₁ :=
      deleteEntries_ok.2 ⟨entries, hedit⟩
    rw [h] at hdelete
    exact absurd hdelete (by simp)

/-! ## Edits that are granted -/

/-- New data for the entry of a name can be written: it fits, and the system takes the archive
with it. -/
structure Writable (w : Workspace) (path name : String) (data : Content)
    (entries : List (Zip.Entry Content)) : Prop where
  fits : data.fitsEntry = true
  grants : Grants w path (Zip.replace name data entries)

theorem Writable.rewriting (h : Writable w path name data entries) :
    rewriting w path (Zip.replacing name data) entries = .ok () :=
  rewriting_ok.2 ⟨h.grants, fits_replacing.2 fun _ => h.fits⟩

theorem Writable.leaves (h : Writable w path name data entries) (hnamed : Named w.disk path la)
    (hopen : Native.openZip path w = .ok entries w) :
    leaves (Native.replaceEntry path name data) w =
      { w with disk := written w.disk la (Zip.replace name data entries) } := by
  have hreplace := (Holds.found hopen).replaceEntry hnamed h.rewriting
  by_cases hname : name ∈ Zip.names entries
  · rw [if_pos hname] at hreplace
    exact Act.leaves_of_ok hreplace
  · rw [if_neg hname] at hreplace
    exact Act.leaves_of_error hreplace

/-! ## The laws -/

/-- Edits of the archive at a path, which has certain entries, obey the laws of a store that is
keyed by names, as far as they are granted. -/
structure KeyedStore (path : String) (w : Workspace) (entries : List (Zip.Entry Content)) :
    Prop where
  /-- The last data counts. -/
  replace_replace : ∀ e c d, Writable w path e d entries →
    Native.replaceEntry path e d (leaves (Native.replaceEntry path e c) w) =
      Native.replaceEntry path e d w
  /-- Replacements of different entries can be made in either order. -/
  replace_comm : ∀ e f c d, e ∈ Zip.names entries → f ∈ Zip.names entries → e ≠ f →
    Writable w path e c entries → Writable w path f d entries →
    Writable w path f d (Zip.replace e c entries) →
    Native.replaceEntry path f d (leaves (Native.replaceEntry path e c) w) =
      Native.replaceEntry path e c (leaves (Native.replaceEntry path f d) w)
  /-- New data is lost with its entry. -/
  delete_replace : ∀ e c doomed, e ∈ doomed → Grants w path (Zip.delete doomed entries) →
    Native.deleteEntries path doomed (leaves (Native.replaceEntry path e c) w) =
      Native.deleteEntries path doomed w
  /-- Deletions one after the other are one. -/
  delete_delete : ∀ doomed more, Grants w path (Zip.delete doomed entries) →
    Grants w path (Zip.delete (doomed ++ more) entries) →
    Native.deleteEntries path more (leaves (Native.deleteEntries path doomed) w) =
      Native.deleteEntries path (doomed ++ more) w
  /-- A replacement writes the archive anew, with one entry filled and the others copied, each in
  its place. -/
  replaced : ∀ e c, e ∈ Zip.names entries → Writable w path e c entries → ∃ la more,
    Native.replaceEntry path e c w = .ok () { w with disk := written w.disk la more } ∧
    Native.openZip path { w with disk := written w.disk la more } =
      .ok more { w with disk := written w.disk la more } ∧
    List.Forall₂ (Zip.Filed e c) entries more
  /-- A replacement at a name that no entry has fails, and all entries are copied. -/
  absent : ∀ e c, e ∉ Zip.names entries → Grants w path (Zip.replace e c entries) → ∃ la more,
    Native.replaceEntry path e c w =
      .error (.malformed path (.noEntry e)) { w with disk := written w.disk la more } ∧
    Native.openZip path { w with disk := written w.disk la more } =
      .ok more { w with disk := written w.disk la more } ∧
    List.Forall₂ Zip.Copied entries more

theorem Named.keyedStore (h : Named w.disk path la)
    (hopen : Native.openZip path w = .ok entries w) : KeyedStore path w entries := by
  have hfound : Holds w path la entries w := .found hopen
  have hreplaced : ∀ e c, Holds w path la (Zip.replace e c entries)
      { w with disk := written w.disk la (Zip.replace e c entries) } := fun e c =>
    .edited (Zip.nodup_edit _ hfound.nodup)
  constructor
  case replace_replace =>
    intro e c d hd
    have hd' : Writable w path e d (Zip.replace e c entries) :=
      ⟨hd.fits, (Zip.replace_replace e c d entries).symm ▸ hd.grants⟩
    rcases hfound.leaves_replaceEntry h e c with hwritten | hsame
    · rw [hwritten, (hreplaced e c).replaceEntry h hd'.rewriting,
        hfound.replaceEntry h hd.rewriting, names_replace, Zip.replace_replace]
    · rw [hsame]
  case replace_comm =>
    intro e f c d he hf hne hc hd hboth
    have hboth' : Writable w path e c (Zip.replace f d entries) :=
      ⟨hc.fits, Zip.replace_comm hne c d entries ▸ hboth.grants⟩
    rw [hc.leaves h hopen, hd.leaves h hopen, (hreplaced e c).replaceEntry h hboth.rewriting,
      (hreplaced f d).replaceEntry h hboth'.rewriting, names_replace, names_replace, if_pos he,
      if_pos hf, Zip.replace_comm hne]
  case delete_replace =>
    intro e c doomed he hdelete
    have hdelete' : Grants w path (Zip.delete doomed (Zip.replace e c entries)) :=
      (Zip.delete_replace he c entries).symm ▸ hdelete
    rcases hfound.leaves_replaceEntry h e c with hwritten | hsame
    · rw [hwritten, (hreplaced e c).deleteEntries h hdelete',
        hfound.deleteEntries h hdelete, Zip.delete_replace he]
    · rw [hsame]
  case delete_delete =>
    intro doomed more hfirst hboth
    have hsecond : Grants w path (Zip.delete more (Zip.delete doomed entries)) :=
      (Zip.delete_delete doomed more entries).symm ▸ hboth
    have hdeleted : Holds w path la (Zip.delete doomed entries) _ :=
      .edited (Zip.nodup_edit _ hfound.nodup)
    rw [Act.leaves_of_ok (hfound.deleteEntries h hfirst), hdeleted.deleteEntries h hsecond,
      hfound.deleteEntries h hboth, Zip.delete_delete]
  case replaced =>
    intro e c he hc
    have hreplace := hfound.replaceEntry h hc.rewriting
    rw [if_pos he] at hreplace
    exact ⟨la, _, hreplace, (hreplaced e c).openZip h, Zip.forall₂_replace e c entries⟩
  case absent =>
    intro e c he hgrants
    have hok : Native.rewriting w path (Zip.replacing e c) entries = .ok () :=
      rewriting_ok.2 ⟨hgrants, fits_replacing.2 fun hmem => absurd hmem he⟩
    have hreplace := hfound.replaceEntry h hok
    rw [if_neg he] at hreplace
    exact ⟨la, _, hreplace, (hreplaced e c).openZip h, Zip.forall₂_replace_of_not_mem he c⟩

/-- **Edits are lawful** at every path. Where the archive can be read they obey the laws of a store,
as far as the system grants them and new data fits. After a failure everything is as it was,
whatever the cause, unless a replacement has found no entry of its name. -/
theorem edits_lawful (hwf : w.disk.tree.WellFormed) (path : String) :
    (∀ entries, Native.openZip path w = .ok entries w → KeyedStore path w entries) ∧
    (∀ e c err w', Native.replaceEntry path e c w = .error err w' →
      err ≠ .malformed path (.noEntry e) → w' = w) ∧
    ∀ doomed err w', Native.deleteEntries path doomed w = .error err w' → w' = w := by
  refine ⟨fun entries hopen => ?_, fun e c err w' h hne => replaceEntry_error h hne,
    fun doomed err w' h => deleteEntries_error h⟩
  obtain ⟨la, hnamed⟩ := named_of_open hwf hopen
  exact hnamed.keyedStore hopen

/-- Two files, one of them without a mode and not intact. -/
def twoEntries : List (Zip.Entry Content) :=
  [{ name := "a", data := .bytes [1], mode := some 0o100755 },
    { name := "b", data := .bytes [2], intact := false }]

/-- A disk with their archive. -/
def twoFiles : Workspace where
  disk := { tree := ⟨[(["d"], .dir 0o755), (["z"], .file (.zip twoEntries) 0o644)]⟩ }

theorem edits_lawful_twoFiles : twoFiles.disk.tree.WellFormed ∧
    openZip "z" twoFiles = .ok twoEntries twoFiles ∧
    Writable twoFiles "z" "a" (.bytes [3]) twoEntries ∧ KeyedStore "z" twoFiles twoEntries :=
  have hwf : twoFiles.disk.tree.WellFormed := Tree.wellFormed_of_parents (by decide)
  ⟨hwf, rfl, ⟨by decide, ⟨rfl, rfl, rfl, rfl⟩⟩, (edits_lawful hwf "z").1 twoEntries rfl⟩

/-! ## Archives that cannot be edited -/

/-- Without room for the path of a temporary file no archive is written anew. -/
theorem rewriting_of_long (h : Disk.pathLimit ≤ (w.disk.besidePath path).utf8ByteSize)
    (action : String → Zip.Action Content) (entries : List (Zip.Entry Content)) :
    rewriting w path action entries =
      .error (.temporary (w.disk.besidePath path) (.os .nameTooLong)) := by
  have hbeside : w.disk.beside path =
      .error (.temporary (w.disk.besidePath path) (.os .nameTooLong)) := if_pos h
  unfold rewriting
  rw [hbeside]
  rfl

theorem rewriting_of_large (h : Grants w path (Zip.replace name data entries))
    (hmem : name ∈ Zip.names entries) (hlarge : data.fitsEntry = false) :
    rewriting w path (Zip.replacing name data) entries = .error .entryTooLarge := by
  have hfits : ¬ fits (Zip.replacing name data) entries = true := by
    rw [fits_replacing]
    intro hfits
    rw [hfits hmem] at hlarge
    exact absurd hlarge (by simp)
  have hmake : w.grant path .make = .ok () := grant_ok.2 h.make
  have hfill : w.grant path (.fill (Zip.edit (Zip.replacing name data) entries)) = .ok () :=
    grant_ok.2 h.fill
  unfold rewriting
  rw [h.beside, hmake, hfill, if_neg hfits]
  rfl

/-- The pieces of a way to `z` by way of a directory and back, so and so often. -/
def roundaboutPieces : Nat → List String
  | 0 => []
  | n + 1 => "d" :: ".." :: roundaboutPieces n

/-- The way itself. -/
def roundabout (n : Nat) : String := "/".intercalate (roundaboutPieces n ++ ["z"])

theorem size_roundaboutPieces (n : Nat) :
    ("/".intercalate (roundaboutPieces (n + 1))).utf8ByteSize = 5 * n + 4 := by
  induction n with
  | zero => decide
  | succ n ih =>
    have hpieces : roundaboutPieces (n + 2) = ["d", ".."] ++ roundaboutPieces (n + 1) := rfl
    rw [hpieces, Text.intercalate_append (by simp) (by simp [roundaboutPieces]),
      String.utf8ByteSize_append, String.utf8ByteSize_append, ih]
    have hstart : ("/".intercalate ["d", ".."]).utf8ByteSize + "/".utf8ByteSize = 5 := by decide
    omega

theorem mem_roundaboutPieces {n : Nat} {p : String} (h : p ∈ roundaboutPieces n) :
    p = "d" ∨ p = ".." := by
  induction n with
  | zero => exact absurd h List.not_mem_nil
  | succ n ih =>
    simp only [roundaboutPieces, List.mem_cons] at h
    rcases h with rfl | rfl | h
    · exact .inl rfl
    · exact .inr rfl
    · exact ih h

theorem split_roundabout (n : Nat) :
    Text.split (roundabout n) '/' = roundaboutPieces n ++ ["z"] := by
  refine Text.split_intercalate (by simp) fun p hp => ?_
  rcases List.mem_append.1 hp with hp | hp
  · rcases mem_roundaboutPieces hp with rfl | rfl <;> decide
  · rw [List.mem_singleton.1 hp]
    decide

theorem roundabout_succ (n : Nat) :
    roundabout (n + 1) = "/".intercalate (roundaboutPieces (n + 1)) ++ "/" ++ "z" :=
  Text.intercalate_append (by simp [roundaboutPieces]) (by simp)

theorem trail_roundabout (follow : Bool) (n : Nat) :
    twoFiles.disk.tree.trail follow [] (roundaboutPieces n ++ ["z"]) = .ok (.arrived ["z"]) := by
  induction n with
  | zero => cases follow <;> rfl
  | succ n ih =>
    have hname : Tree.IsName "d" := ⟨by decide, by decide, by decide, by decide⟩
    show twoFiles.disk.tree.trail follow [] ("d" :: ".." :: (roundaboutPieces n ++ ["z"])) = _
    rw [Tree.trail_enter (m := 0o755) (n := .dir 0o755) rfl hname rfl (by simp),
      Tree.trail_up (m := 0o755) rfl]
    exact ih

theorem size_roundabout (n : Nat) : (roundabout (n + 1)).utf8ByteSize = 5 * n + 6 := by
  have hend : "/".utf8ByteSize + "z".utf8ByteSize = 2 := by decide
  rw [roundabout_succ, String.utf8ByteSize_append, String.utf8ByteSize_append,
    size_roundaboutPieces]
  omega

theorem nul_roundabout (n : Nat) : '\x00' ∉ (roundabout n).toList := by
  induction n with
  | zero => decide
  | succ n ih =>
    have hpieces : roundaboutPieces (n + 1) ++ ["z"] = ["d", ".."] ++
        (roundaboutPieces n ++ ["z"]) :=
      rfl
    have hstart : '\x00' ∉ ("/".intercalate ["d", ".."] ++ "/").toList := by decide
    rw [roundabout, hpieces, Text.intercalate_append (by simp) (by simp), String.toList_append,
      List.mem_append, not_or]
    exact ⟨hstart, ih⟩

theorem fits_roundabout : Disk.Fits (roundabout 818) where
  nul := by
    unfold Text.hasChar
    rw [List.contains_eq_mem, decide_eq_false_iff_not]
    exact nul_roundabout 818
  ne_empty := by
    intro hempty
    have hsize := size_roundabout 817
    rw [hempty] at hsize
    exact absurd hsize (by decide)
  size_lt := by
    rw [size_roundabout]
    decide
  names := by
    intro p hp
    rw [split_roundabout, List.mem_append] at hp
    rcases hp with hp | hp
    · rcases mem_roundaboutPieces hp with rfl | rfl <;> decide
    · rw [List.mem_singleton.1 hp]
      decide

theorem open_roundabout : openZip (roundabout 818) twoFiles = .ok twoEntries twoFiles := by
  have hlocate : twoFiles.disk.locate (roundabout 818) true = .ok ["z"] := by
    have hstart : twoFiles.disk.startOf (roundabout 818) = [] := ite_self _
    rw [Disk.locate_eq fits_roundabout, hstart, split_roundabout, Tree.walk_eq, trail_roundabout]
    rfl
  exact openZip_ok.2 ⟨rfl, ["z"], .zip twoEntries, 0o644, Disk.find_eq hlocate rfl, rfl⟩

theorem size_join {base part : String} (hbase : base ≠ "") (hpart : Path.isAbsolute part = false) :
    base.utf8ByteSize + part.utf8ByteSize ≤ (Path.join base part).utf8ByteSize := by
  unfold Path.join
  rw [if_neg (by simp [hbase, hpart])]
  split
  · exact Nat.le_of_eq (String.utf8ByteSize_append ..).symm
  · rw [String.utf8ByteSize_append, String.utf8ByteSize_append]
    omega

theorem directoryOf_roundabout (n : Nat) :
    Disk.directoryOf (roundabout (n + 1)) = "/".intercalate (roundaboutPieces (n + 1)) := by
  have hlast : ∀ n, roundaboutPieces (n + 1) = roundaboutPieces n ++ ["d", ".."] := by
    intro n
    induction n with
    | zero => rfl
    | succ n ih => exact congrArg (fun ps => "d" :: ".." :: ps) ih
  have hbase : Path.IsBase (roundaboutPieces (n + 1)) := by
    refine ⟨fun p hp => ?_, roundaboutPieces n ++ ["d"], "..", ?_, by decide, by decide⟩
    · rcases mem_roundaboutPieces hp with rfl | rfl <;> decide
    · rw [hlast, List.append_assoc]
      rfl
  have hparent := Path.parent?_of_split (split_roundabout (n + 1)) (by decide) (by simp)
  rw [Path.keptText_base _ hbase] at hparent
  unfold Disk.directoryOf
  rw [hparent]
  exact if_neg (Path.intercalate_ne_empty hbase)

/-- The directory of a roundabout way counts with all its pieces. -/
theorem size_besidePath_roundabout (n : Nat) :
    5 * n + 15 ≤ (twoFiles.disk.besidePath (roundabout (n + 1))).utf8ByteSize := by
  have hslash : ∀ p ∈ roundaboutPieces (n + 1), '/' ∉ p.toList := fun p hp => by
    rcases mem_roundaboutPieces hp with rfl | rfl <;> decide
  have hrelative : Path.isAbsolute ("/".intercalate (roundaboutPieces (n + 1))) = false := by
    rw [Path.isAbsolute_intercalate hslash, decide_eq_false_iff_not]
    exact fun h => absurd h.1 (by simp [roundaboutPieces])
  have hinner := size_join (show "/" ≠ "" by decide) hrelative
  rw [size_roundaboutPieces] at hinner
  have hne : Path.join "/" ("/".intercalate (roundaboutPieces (n + 1))) ≠ "" := by
    intro hempty
    rw [hempty, String.utf8ByteSize_empty] at hinner
    omega
  have houter := size_join hne (show Path.isAbsolute Disk.temporaryName = false by decide)
  have hroot : "/".utf8ByteSize = 1 := by decide
  have hname : Disk.temporaryName.utf8ByteSize = 10 := by decide
  have hcwd : twoFiles.disk.cwdText = "/" := by decide
  unfold Disk.besidePath
  rw [hcwd, directoryOf_roundabout]
  omega

/-- **Not every edit is made** of an archive that can be read. A way to it may leave no room for the
path of a temporary file, and a content of 4 GiB is too large for an entry. -/
theorem edits_refused :
    openZip (roundabout 818) twoFiles = .ok twoEntries twoFiles ∧
    replaceEntry (roundabout 818) "a" (.bytes [3]) twoFiles =
      .error (.io (.temporary (twoFiles.disk.besidePath (roundabout 818)) (.os .nameTooLong)))
        twoFiles ∧
    replaceEntry "z" "a" (.bytes (List.replicate 0x100000000 0)) twoFiles =
      .error (.io .entryTooLarge) twoFiles := by
  have hlong := rewriting_of_long (Nat.le_trans (by decide) (size_besidePath_roundabout 817))
    (Zip.replacing "a" (.bytes [3])) twoEntries
  have hlarge : Content.fitsEntry (.bytes (List.replicate 0x100000000 0)) = false := by
    unfold Content.fitsEntry Content.image
    rw [List.length_replicate]
    decide
  have hgrants : Grants twoFiles "z"
      (Zip.replace "a" (.bytes (List.replicate 0x100000000 0)) twoEntries) := ⟨rfl, rfl, rfl, rfl⟩
  have hrefused := rewriting_of_large hgrants (show "a" ∈ Zip.names twoEntries by decide) hlarge
  exact ⟨open_roundabout, Act.bind_of_error (editArchive_of_refused open_roundabout hlong),
    Act.bind_of_error (editArchive_of_refused rfl hrefused)⟩

end Rebadge.Archiver.Native
