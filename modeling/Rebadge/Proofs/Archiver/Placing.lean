import Rebadge.Proofs.Archiver.Confinement
import Rebadge.Proofs.Archiver.Extraction

/-!
# Extraction into a directory

Entries that are listed are extracted one after the other into a directory that may hold other
things. Each one is put in its place (`InPlace.stored`), keeps the others there (`InPlace.keep`) and
is in no one's way (`Passable.keep`), so extraction succeeds if nothing was in the way before
(`extractEach_inPlace`). Whatever happens, nothing outside the directory changes
(`extractEntries_below`).
-/

namespace Rebadge.Archiver.Native

open Disk (Fits Free newDirMode)
open Rebadge.Tree (Extends makeWay)

variable {w : Workspace} {archive dest name : String} {t : Tree} {l k la : Location}
  {e f : Zip.Entry Content} {entries : List (Zip.Entry Content)} {names : List String}

/-! ## One entry beside others -/

/-- The entry is in its place: a directory, or a file with what the entry holds. -/
def InPlace (t : Tree) (l : Location) (e : Zip.Entry Content) : Prop :=
  if Path.endsInSlash e.name then ∃ mode, t.get? (l ++ entryPath e.name) = some (.dir mode)
  else ∃ mode, t.get? (l ++ entryPath e.name) = some (.file e.data mode)

/-- No path of the two names is one of a file and a part of the other one. -/
def Apart (a b : String) : Prop :=
  Path.endsInSlash a = false → a ≠ b → ¬ entryPath a <+: entryPath b

theorem Apart.not_isPrefix {a b : String} (h : Apart a b) (hslash : Path.endsInSlash a = false) :
    ¬ entryPath a <+: entryDirs b := by
  intro hpre
  by_cases heq : a = b
  · exact not_isPrefix_entryDirs hslash (heq ▸ hpre)
  · exact h hslash heq (hpre.trans (entryDirs_isPrefix b))

/-- **An entry is put** in its place. -/
theorem InPlace.stored (hl : ∃ m, t.get? l = some (.dir m)) (h : Passable t l e.name) :
    InPlace (stored t l e) l e := by
  unfold InPlace
  cases hslash : Path.endsInSlash e.name with
  | true =>
    have hdirs := h.dirs
    rw [if_pos rfl, get?_stored_of_ne (by simp [hslash])]
    rw [entryDirs_of_slash hslash] at hdirs ⊢
    exact (Disk.isDirs_makeWay (d := { tree := t }) hl hdirs).self
  | false =>
    rw [if_neg (by simp)]
    exact get?_stored_self hslash

theorem Passable.keep (h : Passable t l name) (hef : Apart e.name name) (hfe : Apart name e.name) :
    Passable (Native.stored t l e) l name := by
  constructor
  · intro q hq hpre
    rw [get?_stored_of_ne fun hslash heq => ?_]
    · exact h.dirs.makeWay _ q hq hpre
    · rw [List.append_cancel_left heq] at hpre
      exact hef.not_isPrefix hslash hpre
  · intro hslash
    by_cases heq : Path.endsInSlash e.name = false ∧ l ++ entryPath name = l ++ entryPath e.name
    · obtain ⟨mode, hfile⟩ := get?_stored_self (t := t) (l := l) heq.1
      rw [heq.2]
      exact Or.inr ⟨_, mode, hfile⟩
    rw [get?_stored_of_ne fun hslash' heq' => heq ⟨hslash', heq'⟩]
    rw [Tree.get?_makeWay_other t l (hfe.not_isPrefix hslash)]
    exact h.file hslash

theorem InPlace.keep (h : InPlace t l f) (hef : Apart e.name f.name)
    (hsame : e.name = f.name → e = f) : InPlace (Native.stored t l e) l f := by
  unfold InPlace at h ⊢
  split
  · next hslash =>
    rw [if_pos hslash] at h
    obtain ⟨mode, hdir⟩ := h
    refine ⟨mode, get?_stored_of_some (fun hfile heq => ?_) hdir⟩
    have hpath := List.append_cancel_left heq
    exact hef hfile (fun hname => by simp [← hname, hfile] at hslash) (hpath ▸ List.prefix_refl _)
  · next hslash =>
    rw [if_neg hslash] at h
    obtain ⟨mode, hfile⟩ := h
    by_cases heq : Path.endsInSlash e.name = false ∧ l ++ entryPath f.name = l ++ entryPath e.name
    · have hpath := List.append_cancel_left heq.2
      have hname : e.name = f.name := eq_of_entryPath hpath.symm (by rw [heq.1]; simpa using hslash)
      rw [← hsame hname]
      exact get?_stored_self heq.1
    · exact ⟨mode, get?_stored_of_some (fun hslash' heq' => heq ⟨hslash', heq'⟩) hfile⟩

/-! ## Several entries -/

/-- Names that can be extracted one after the other: each one is a plain path of an entry that can
be read, and no path of a file is one of a directory as well. -/
structure Readable (entries : List (Zip.Entry Content)) (names : List String) : Prop where
  found : ∀ name ∈ names, ∃ e, Zip.find? entries name = some e ∧
    (Path.endsInSlash name = false → e.intact = true)
  plain : ∀ name ∈ names, PlainName name
  noConflict : NoConflict names

/-- Nothing in the directory is in their way, and the system has room for their paths. -/
structure Fitting (d : Disk) (dest : String) (l : Location) (names : List String) : Prop where
  fits : ∀ name ∈ names, Fits (Path.join dest name)
  passable : ∀ name ∈ names, Passable d.tree l name

theorem Readable.apart (h : Readable entries names) {a b : String} (ha : a ∈ names)
    (hb : b ∈ names) : Apart a b :=
  fun hslash hne => h.noConflict a ha hslash b hb hne.symm

theorem name_of_find? (h : Zip.find? entries name = some e) : e.name = name := by
  simpa using List.find?_some h

theorem extractEntry_listed (hleads : w.disk.Leads dest l) (hread : Readable entries names)
    (hfit : Fitting w.disk dest l names) (harchive : HasArchive w.disk archive la)
    (hapart : ∀ name ∈ names, Path.endsInSlash name = false → la ≠ l ++ entryPath name)
    (hname : e.name ∈ names) (hfind : Zip.find? entries e.name = some e) :
    extractEntry archive entries dest e.name w =
      .ok () { w with disk := { w.disk with tree := stored w.disk.tree l e } } := by
  have hplain := hread.plain _ hname
  have halong := hleads.along (not_isAbsolute_of_plain hplain.isPlain)
    (split_eq e.name) hplain.isPlain (entryTail_slashes e.name) (hfit.fits _ hname)
  have hintact : ¬ (Path.endsInSlash e.name = false ∧ e.intact = false) := by
    rintro ⟨hslash, hbroken⟩
    obtain ⟨e', hfind', hintact⟩ := hread.found _ hname
    rw [hfind, Option.some.injEq] at hfind'
    rw [← hfind', hbroken] at hintact
    exact absurd (hintact hslash) (by simp)
  rw [extractEntry_along halong hplain (hfit.passable _ hname) hfind harchive (hapart _ hname),
    if_neg hintact]
  rfl

/-- After it nothing is in the way of the listed ones either. -/
theorem Fitting.stored {d : Disk} (h : Fitting d dest l names) (hread : Readable entries names)
    (he : e.name ∈ names) : Fitting { d with tree := Native.stored d.tree l e } dest l names :=
  ⟨h.fits, fun name hname => (h.passable name hname).keep (hread.apart he hname)
    (hread.apart hname he)⟩

/-- **Listed entries are extracted** one after the other. All that is there stays, except where they
are put. -/
theorem extractEach_inPlace (hleads : w.disk.Leads dest l) (hread : Readable entries names)
    (hfit : Fitting w.disk dest l names) (harchive : HasArchive w.disk archive la)
    (hapart : ∀ name ∈ names, Path.endsInSlash name = false → la ≠ l ++ entryPath name)
    {rest : List String} (hrest : ∀ name ∈ rest, name ∈ names) :
    ∃ d, rest.forM (extractEntry archive entries dest) w = .ok () { w with disk := d } ∧
      (∀ e, e.name ∈ names → Zip.find? entries e.name = some e → e.name ∈ rest ∨
        InPlace w.disk.tree l e →
        InPlace d.tree l e) ∧
      ∀ k n, (∀ name ∈ rest, Path.endsInSlash name = false → k ≠ l ++ entryPath name) →
        w.disk.tree.get? k = some n →
        d.tree.get? k = some n := by
  induction rest generalizing w with
  | nil => exact ⟨w.disk, rfl, fun e _ _ he => he.resolve_left List.not_mem_nil, fun k n _ hn => hn⟩
  | cons name rest ih =>
    obtain ⟨hname, hmore⟩ := List.forall_mem_cons.1 hrest
    obtain ⟨e, hfind, -⟩ := hread.found name hname
    obtain rfl := name_of_find? hfind
    have hpass := hfit.passable _ hname
    have hstep := extractEntry_listed hleads hread hfit harchive hapart hname hfind
    have hnext : Disk.Leads { w.disk with tree := stored w.disk.tree l e } dest l :=
      hleads.extends hpass.extends rfl
    obtain ⟨d, hall, hplace, hkept⟩ :=
      ih (w := { w with disk := { w.disk with tree := stored w.disk.tree l e } }) hnext
        (hfit.stored hread hname) (harchive.stored hpass (hapart _ hname)) hmore
    refine ⟨d, Act.forM_cons_ok.2 ⟨_, hstep, hall⟩, fun f hf hffind hin => hplace f hf hffind ?_,
      fun k n hk hn => ?_⟩
    · by_cases heq : e.name = f.name
      · rw [heq, hffind, Option.some.injEq] at hfind
        rw [hfind]
        exact Or.inr (InPlace.stored hleads.dir hpass)
      · rcases hin with hmem | hold
        · exact Or.inl ((List.mem_cons.1 hmem).resolve_left (Ne.symm heq))
        · exact Or.inr (hold.keep (hread.apart hname hf) fun h => absurd h heq)
    · obtain ⟨hfirst, hothers⟩ := List.forall_mem_cons.1 hk
      exact hkept k n hothers (get?_stored_of_some hfirst hn)

/-- **What was extracted** has paths that fit. -/
theorem fits_of_extractEntries {w' : Workspace}
    (h : extractEntries archive names dest w = .ok () w')
    (hplain : ∀ name ∈ names, PlainName name) : ∀ name ∈ names, Fits (Path.join dest name) := by
  obtain ⟨entries, -, heach⟩ := extractEntries_ok.1 h
  clear h
  induction names generalizing w with
  | nil => simp
  | cons name names ih =>
    obtain ⟨hname, hnames⟩ := List.forall_mem_cons.1 hplain
    obtain ⟨w₁, hone, hrest⟩ := Act.forM_cons_ok.1 heach
    refine List.forall_mem_cons.2 ⟨?_, ih hnames hrest⟩
    cases hfind : Zip.find? entries name with
    | none =>
      unfold extractEntry at hone
      rw [hfind] at hone
      exact absurd hone Act.throw_ok
    | some e =>
      obtain rfl := name_of_find? hfind
      exact fits_of_extractEntry hname hfind hone

/-! ## Extraction -/

/-- **Extraction stays below its destination.** Into a directory without links, entries of any names
are extracted such that nothing outside changes, whether this succeeds or fails, and the archive
stays as it is unless one of them leads to it. It succeeds if all listed entries can be read and
nothing is in their way, and each of them is in its place then. -/
theorem extractEntries_below (hdest : w.disk.Leads dest l)
    (hlink : ∀ r target, w.disk.tree.get? (l ++ r) ≠ some (.link target)) (archive : String)
    (names : List String) :
    ∃ w', Act.leaves (extractEntries archive names dest) w = w' ∧ Confined w w' dest l names ∧
      (∀ la n, w.disk.find archive true = .ok (la, n) →
        (∀ name ∈ names, w'.disk.locate (Path.join dest name) true ≠ .ok la) →
        w'.disk.find archive true = .ok (la, n)) ∧
      ∀ la c mode entries, w.disk.find archive true = .ok (la, .file c mode) →
        c.zipEntries = .ok entries →
        Readable entries names → Fitting w.disk dest l names →
        (∀ name ∈ names, Path.endsInSlash name = false → la ≠ l ++ entryPath name) →
          Act.outcome (extractEntries archive names dest) w = .ok () ∧
            (∀ name ∈ names, ∃ e, Zip.find? entries name = some e ∧ InPlace w'.disk.tree l e) ∧
            w'.disk.find archive true = .ok (la, .file c mode) := by
  have hconfined := confined_extractEntries hdest hlink archive names
  refine ⟨_, rfl, hconfined, fun la n hfind hapart => ?_,
    fun la c mode entries hfind hzip hread hfit hapart => ?_⟩
  · refine (hconfined.find hfind).resolve_right ?_
    rintro ⟨name, hname, hlocate⟩
    exact hapart name hname hlocate
  · have harchive : HasArchive w.disk archive la := ⟨c, mode, hfind, by rw [hzip]; rfl⟩
    obtain ⟨d, hall, hplace, hkept⟩ :=
      extractEach_inPlace hdest hread hfit harchive hapart fun _ hname => hname
    have hok : extractEntries archive names dest w = .ok () { w with disk := d } :=
      extractEntries_ok.2 ⟨entries, openZip_ok.2 ⟨rfl, la, c, mode, hfind, hzip⟩, hall⟩
    rw [Act.leaves_of_ok hok] at hconfined ⊢
    refine ⟨by unfold Act.outcome; rw [hok], fun name hname => ?_, ?_⟩
    · obtain ⟨e, he, -⟩ := hread.found name hname
      obtain rfl := name_of_find? he
      exact ⟨e, he, hplace e hname he (Or.inl hname)⟩
    · obtain ⟨hlocate, hget⟩ := Disk.find_ok.1 hfind
      have hlocate' := Disk.locate_of_extends hconfined.grown hconfined.cwd hlocate (by simp [hget])
      exact Disk.find_eq hlocate' (hkept la _ hapart hget)

theorem passable_of_empty (h : ∀ r, r ≠ [] → t.get? (l ++ r) = none) (name : String) :
    Passable t l name :=
  ⟨fun q hq _ => Or.inl (h q hq), fun _ => Or.inl (h _ (entryPath_ne_nil name))⟩

/-- A disk with an archive and a directory that holds some nodes. -/
def withZip (archive : Location) (entries : List (Zip.Entry Content))
    (nodes : List (Location × Node)) : Workspace where
  disk := { tree := ⟨(["out"], .dir 0o755) :: nodes.map (fun p => ("out" :: p.1, p.2)) ++
    [(archive, .file (.zip entries) 0o644)]⟩ }

theorem noLink_withZip {archive : Location} {entries : List (Zip.Entry Content)}
    {nodes : List (Location × Node)} (h : ∀ p ∈ nodes, ∀ target, p.2 ≠ .link target)
    (r : Location) (target : String) :
    (withZip archive entries nodes).disk.tree.get? (["out"] ++ r) ≠ some (.link target) := by
  intro hget
  have hnode : Tree.nodeAt ("out" :: r) (withZip archive entries nodes).disk.tree.nodes =
    some (.link target) := hget
  have hmem := Tree.mem_nodes_of_nodeAt hnode
  rcases List.mem_append.1 hmem with hmem | hmem
  · rcases List.mem_cons.1 hmem with heq | hmem
    · exact absurd (congrArg Prod.snd heq) (by simp)
    · obtain ⟨p, hp, heq⟩ := List.mem_map.1 hmem
      exact h p hp target (congrArg Prod.snd heq)
  · rw [List.mem_singleton] at hmem
    exact absurd (congrArg Prod.snd hmem) (by simp)

/-- An entry for an empty file. -/
def emptyEntry (name : String) : Zip.Entry Content := { name, data := .bytes [] }

theorem readable_emptyEntry {name : String} (h : PlainName name) :
    Readable [emptyEntry name] [name] := by
  refine ⟨fun n hn => ⟨emptyEntry name, ?_, fun _ => rfl⟩, fun n hn => ?_,
    fun a ha _ b hb hne => ?_⟩
  · rw [List.mem_singleton.1 hn]
    simp [Zip.find?, emptyEntry]
  · rwa [List.mem_singleton.1 hn]
  · rw [List.mem_singleton.1 ha, List.mem_singleton.1 hb] at hne
    exact absurd rfl hne

theorem extractEntries_below_file :
    ∃ w', Act.leaves (extractEntries "x.zip" ["d/a"] "out")
      (withZip ["x.zip"] [emptyEntry "d/a"] []) = w' ∧
      Confined (withZip ["x.zip"] [emptyEntry "d/a"] []) w' "out" ["out"] ["d/a"] ∧
      Act.outcome (extractEntries "x.zip" ["d/a"] "out")
        (withZip ["x.zip"] [emptyEntry "d/a"] []) = .ok () ∧
      InPlace w'.disk.tree ["out"] (emptyEntry "d/a") := by
  have hdest : (withZip ["x.zip"] [emptyEntry "d/a"] []).disk.Leads "out" ["out"] := ⟨rfl, _, rfl⟩
  obtain ⟨w', hleaves, hconfined, -, hsuccess⟩ :=
    extractEntries_below hdest (noLink_withZip (by simp)) "x.zip" ["d/a"]
  have hempty : ∀ r, r ≠ [] →
      (withZip ["x.zip"] [emptyEntry "d/a"] []).disk.tree.get? (["out"] ++ r) = none :=
    fun r hr => Decidable.byContradiction fun hsome =>
      hr (Tree.forall_below (P := (· = [])) (by simp) (by decide) r hsome)
  have hfit : Fitting (withZip ["x.zip"] [emptyEntry "d/a"] []).disk "out" ["out"] ["d/a"] :=
    ⟨by decide +kernel, fun name _ => passable_of_empty hempty name⟩
  obtain ⟨hok, hplace, -⟩ :=
    hsuccess ["x.zip"] (.zip [emptyEntry "d/a"]) 0o644 [emptyEntry "d/a"] rfl rfl
      (readable_emptyEntry (by decide)) hfit (by decide)
  obtain ⟨e, he, hplace⟩ := hplace "d/a" (List.mem_singleton_self _)
  obtain rfl : emptyEntry "d/a" = e := by simpa [Zip.find?, emptyEntry] using he
  exact ⟨w', hleaves, hconfined, hok, hplace⟩

/-- A file's place is taken by a directory. -/
def blockedZip : Workspace := withZip ["x.zip"] [emptyEntry "a"] [(["a"], .dir 0o755)]

/-- A name of more bytes than a directory can hold. -/
def longName : String := .ofList (List.replicate 256 'a')

theorem toList_longName : longName.toList = List.replicate 256 'a' := String.toList_ofList

theorem isPlain_longName : Path.IsPlain longName := by
  have hne : ∀ s : String, s.toList.length < 256 → longName ≠ s := by
    rintro s hs rfl
    rw [toList_longName, List.length_replicate] at hs
    exact absurd hs (Nat.lt_irrefl _)
  refine ⟨hne _ (by decide), hne _ (by decide), hne _ (by decide), ?_⟩
  rw [toList_longName, List.mem_replicate]
  decide

theorem entryPath_longName : entryPath longName = [longName] :=
  entryPath_intercalate (by simpa using isPlain_longName) (by simp)
    (Or.inl (String.intercalate_singleton ..).symm)

theorem plainName_longName : PlainName longName := by
  have hplain := isPlain_longName
  refine ⟨?_, ?_, ?_⟩
  · rw [entryPath_longName]
    simpa using ⟨hplain.ne_empty, hplain.ne_current, hplain.ne_parent⟩
  · rw [toList_longName, List.mem_replicate]
    decide
  · rw [toList_longName, List.mem_replicate]
    decide

def lengthyZip : Workspace := withZip ["x.zip"] [emptyEntry longName] []

theorem long_not_extracted :
    (Act.outcome (extractEntries "x.zip" [longName] "out") lengthyZip).isOk = false := by
  rw [Bool.eq_false_iff, ne_eq, Act.isOk_outcome]
  rintro ⟨⟨⟩, w', hok⟩
  have hplain := plainName_longName
  have hfits := fits_of_extractEntries hok (by simpa using hplain) longName
    (List.mem_singleton_self _)
  obtain ⟨front, hsplit, -⟩ :=
    Path.split_join_relative "out" (not_isAbsolute_of_plain hplain.isPlain)
  have hmem : longName ∈ Text.split (Path.join "out" longName) '/' := by
    rw [hsplit, split_eq, entryPath_longName]
    simp
  exact absurd (hfits.names longName hmem) (by decide +kernel)

/-- The archive is at the place of one of its entries. -/
def ownZip : Workspace := withZip ["out", "a"] [emptyEntry "a"] []

/-- **Obstructed extraction.** An entry that can be read is not extracted where a directory is in
its place or where its name is too long, and one that is put at the archive's own place takes the
archive away. -/
theorem extractEntries_obstructed :
    (blockedZip.disk.Leads "out" ["out"] ∧
      (∀ r target, blockedZip.disk.tree.get? (["out"] ++ r) ≠ some (.link target)) ∧
      Readable [emptyEntry "a"] ["a"] ∧
        (Act.outcome (extractEntries "x.zip" ["a"] "out") blockedZip).isOk = false) ∧
    (lengthyZip.disk.Leads "out" ["out"] ∧
      (∀ r target, lengthyZip.disk.tree.get? (["out"] ++ r) ≠ some (.link target)) ∧
      Readable [emptyEntry longName] [longName] ∧
      (Act.outcome (extractEntries "x.zip" [longName] "out") lengthyZip).isOk = false) ∧
    ownZip.disk.Leads "out" ["out"] ∧
    (∀ r target, ownZip.disk.tree.get? (["out"] ++ r) ≠ some (.link target)) ∧
      (Act.outcome (openZip "out/a") ownZip).isOk = true ∧
      (Act.outcome (openZip "out/a")
          (Act.leaves (extractEntries "out/a" ["a"] "out") ownZip)).isOk = false := by
  refine ⟨⟨⟨rfl, _, rfl⟩, noLink_withZip (by simp), readable_emptyEntry (by decide), ?_⟩,
    ⟨⟨rfl, _, rfl⟩, noLink_withZip (by simp), readable_emptyEntry plainName_longName,
      long_not_extracted⟩, ⟨rfl, _, rfl⟩,
    noLink_withZip (by simp), ?_, ?_⟩
  all_goals decide +kernel

end Rebadge.Archiver.Native
