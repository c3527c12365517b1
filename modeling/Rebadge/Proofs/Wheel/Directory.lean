import Rebadge.Proofs.Wheel.Moving

/-!
# The entries of the directory for metadata

The entries that a scan finds are those with the directory first in their path (`dirEntries`). After
the move each of them is there under its new name with the same data (`mem_moved_file`), the
directories among them stand in front of what they hold, and there are no other files
(`mem_files_moved`).
-/

namespace Rebadge.Wheel

open Archiver.Native

variable {path dir new : String} {entries edited es kept : List (Zip.Entry Content)} {s : Scan}

/-! ## Names below the directory -/

/-- Whether a name lies in a directory. -/
def inside (dir name : String) : Bool := Text.hasPrefix name (dir ++ "/")

/-- The name under which an entry is found after the move. -/
def movedName (dir new name : String) : String :=
  match Text.stripPrefix? (dir ++ "/") name with
  | some rest => inDir new rest
  | none => name

theorem entryDirs_eq (name : String) : entryDirs name = (Text.split name '/').dropLast := by
  unfold entryDirs
  cases h : Path.endsInSlash name with
  | true => rw [if_pos rfl, split_of_slash h, List.dropLast_concat]
  | false => rw [if_neg (by simp), split_of_not_slash h]

/-- A name lies in a directory if that is the first of its directories. -/
theorem inside_iff {name : String} (hdir : '/' ∉ dir.toList) :
    inside dir name = true ↔ ∃ r, entryDirs name = dir :: r := by
  unfold inside
  rw [Text.hasPrefix_slash hdir, entryDirs_eq]
  constructor
  · rintro ⟨rest, hne, hsplit⟩
    exact ⟨rest.dropLast, by rw [hsplit, List.dropLast_cons_of_ne_nil hne]⟩
  · rintro ⟨r, hr⟩
    have hne := Text.split_ne_nil name '/'
    rw [← List.dropLast_concat_getLast hne, hr]
    exact ⟨_, by simp, List.cons_append ..⟩

theorem movedName_of_not_inside {name : String} (h : inside dir name = false) :
    movedName dir new name = name := by
  unfold movedName Text.stripPrefix?
  unfold inside Text.hasPrefix at h
  rw [← List.isSome_isPrefixOf?_eq_isPrefixOf, Option.isSome_eq_false_iff,
    Option.isNone_iff_eq_none] at h
  rw [h]
  rfl

theorem movedName_append (dir new rest : String) :
    movedName dir new (inDir dir rest) = inDir new rest := by
  have hpre : (dir ++ "/").toList.isPrefixOf? (inDir dir rest).toList = some rest.toList := by
    rw [List.isPrefixOf?_eq_some_iff_append_eq]
    simp only [inDir, String.toList_append]
  unfold movedName Text.stripPrefix?
  rw [hpre]
  simp

theorem intercalate_inDir (dir : String) {r : List String} (hr : r ≠ []) :
    "/".intercalate (dir :: r) = inDir dir ("/".intercalate r) := by
  rw [← List.singleton_append, Text.intercalate_append (by simp) hr,
    String.intercalate_singleton, inDir]

theorem movedName_of_entryPath {name : String} {r : List String}
    (hslash : Path.endsInSlash name = false) (hr : r ≠ []) (hpath : entryPath name = dir :: r) :
    movedName dir new name = "/".intercalate (new :: r) := by
  rw [← Text.intercalate_split name, split_of_not_slash hslash, hpath, intercalate_inDir dir hr,
    movedName_append, intercalate_inDir new hr]

theorem inside_inDir (dir file : String) : inside dir (inDir dir file) = true := by
  unfold inside
  rw [Text.hasPrefix_iff]
  exact ⟨file.toList, by rw [inDir, String.toList_append]⟩

theorem exists_inDir {dir name : String} (h : inside dir name = true) :
    ∃ rest, name = inDir dir rest := by
  obtain ⟨rest, hrest⟩ := Text.hasPrefix_iff.1 h
  refine ⟨.ofList rest, String.toList_inj.1 ?_⟩
  rw [hrest]
  simp only [inDir, String.toList_append, String.toList_ofList]

theorem movedName_inj {a b : String} (ha : inside dir a = true) (hb : inside dir b = true)
    (h : movedName dir new a = movedName dir new b) : a = b := by
  obtain ⟨x, rfl⟩ := exists_inDir ha
  obtain ⟨y, rfl⟩ := exists_inDir hb
  rw [movedName_append, movedName_append] at h
  have hlist := congrArg String.toList h
  simp only [inDir, String.toList_append, List.append_cancel_left_eq, String.toList_inj] at hlist
  rw [hlist]

/-! ## The entries -/

/-- The entries of a directory in the order of their names. -/
def dirEntries (dir : String) (entries : List (Zip.Entry Content)) : List (Zip.Entry Content) :=
  Sorted.sort (fun a b => Text.le a.name b.name) (entries.filter fun e => inside dir e.name)

theorem mem_dirEntries {e : Zip.Entry Content} :
    e ∈ dirEntries dir entries ↔ e ∈ entries ∧ inside dir e.name = true := by
  unfold dirEntries
  rw [Sorted.mem_sort, List.mem_filter]

theorem names_dirEntries (dir : String) (entries : List (Zip.Entry Content)) :
    Zip.names (dirEntries dir entries) =
      Sorted.sort Text.le ((Zip.names entries).filter (inside dir)) := by
  unfold dirEntries Zip.names
  rw [Sorted.map_sort, List.filter_map]
  rfl

theorem isDirName_of_scan (hscan : scanEntries path entries = .ok s) : IsDirName s.dir := by
  obtain ⟨⟨n, -, hn⟩, -⟩ := distInfoDir_ok.1 (scanEntries_ok.1 hscan).1
  exact isDirName_of_distInfoOf? hn

theorem find?_of_entryText {name text : String} (h : entryText path entries name = .ok text) :
    name ∈ Zip.names entries := by
  obtain ⟨e, hfind, -⟩ := entryText_ok.1 h
  rw [← Decidable.not_not (p := name ∈ Zip.names entries), ← Zip.find?_eq_none_iff, hfind]
  exact Option.some_ne_none e

/-- **The entries that a scan finds**, in an archive with the same names. -/
theorem dirEntries_spec (hscan : scanEntries path entries = .ok s)
    (hnodup : (Zip.names entries).Nodup) (hnames : Zip.names edited = Zip.names entries)
    (hplain : ∀ n ∈ s.entries, PlainName n) (hconflict : NoConflict s.entries) :
    DirEntries edited s (dirEntries s.dir edited) := by
  obtain ⟨-, -, -, hmetadata, -, hentries⟩ := scanEntries_ok.1 hscan
  have hdir := isDirName_of_scan hscan
  have hall : Zip.names (dirEntries s.dir edited) = s.entries := by
    rw [names_dirEntries, hnames, hentries]
    rfl
  have hnodup' : (Zip.names edited).Nodup := by rwa [hnames]
  refine ⟨hdir, hall, fun e he => ?_, ⟨fun e he => hplain _ ?_, ?_, by rwa [hall]⟩,
    fun e he => ?_, ?_⟩
  · exact (Zip.find?_eq_some_iff hnodup').2 ⟨(mem_dirEntries.1 he).1, rfl⟩
  · rw [← hall]
    exact Zip.mem_names he
  · rw [names_dirEntries, (Sorted.sort_perm _ _).nodup_iff]
    exact hnodup'.filter _
  · exact (inside_iff hdir.slash).1 (mem_dirEntries.1 he).2
  · have hmem : s.metadataPath ∈ Zip.names edited := by
      rw [hnames]
      exact find?_of_entryText hmetadata
    obtain ⟨e, he, hname⟩ := Zip.exists_of_mem_names hmem
    have hinside : inside s.dir e.name = true := by
      rw [hname]
      exact inside_inDir s.dir "METADATA"
    exact List.ne_nil_of_mem (mem_dirEntries.2 ⟨he, hinside⟩)

/-! ## What the move makes of them -/

theorem mem_movedEntries {e : Zip.Entry Content} :
    e ∈ movedEntries new es ↔ ∃ p ∈ treeNodes es, treeEntry new p = e := by
  unfold movedEntries
  rw [List.mem_map]
  simp only [Sorted.mem_sort]

theorem movedEntries_perm {fs : List (Zip.Entry Content)} (hwithin : Within dir es)
    (hes : Extractable es) (hperm : es.Perm fs) : movedEntries new es = movedEntries new fs := by
  have hwithin' : Within dir fs := fun e he => hwithin e (hperm.mem_iff.2 he)
  have hnodup := nodup_treeNodes hwithin hes
  unfold movedEntries
  rw [Tree.sort_eq_of_perm hnodup]
  refine (List.perm_ext_iff_of_nodup hnodup.of_map
    (nodup_treeNodes hwithin' (hes.perm hperm)).of_map).2 fun p => ?_
  obtain ⟨r, n⟩ := p
  rw [mem_treeNodes hwithin, mem_treeNodes hwithin']
  simp only [hperm.mem_iff]

theorem movedEntries_dirEntries (hes : DirEntries edited s (dirEntries s.dir edited)) :
    movedEntries new (dirEntries s.dir edited) =
      movedEntries new (edited.filter fun e => inside s.dir e.name) :=
  movedEntries_perm hes.within hes.extractable (Sorted.sort_perm _ _)

/-! ## Files -/

theorem isFile_eq (e : Zip.Entry Content) : e.isFile = !Path.endsInSlash e.name := rfl

/-- **A file of the directory** is there under its new name. -/
theorem mem_moved_file (hwithin : Within dir es) {e : Zip.Entry Content} (he : e ∈ es)
    (hslash : Path.endsInSlash e.name = false) :
    Zip.newFile (movedName dir new e.name) e.data ∈ movedEntries new es := by
  obtain ⟨r, hr, hpath⟩ := hwithin.filePath he hslash
  rw [mem_movedEntries, movedName_of_entryPath hslash hr hpath]
  exact ⟨_, (mem_treeNodes hwithin).2 ⟨e, he, Or.inl ⟨hslash, hpath, rfl⟩⟩, rfl⟩

theorem inside_of_mem_movedEntries (hwithin : Within dir es) {e : Zip.Entry Content}
    (he : e ∈ movedEntries new es) : inside new e.name = true := by
  have hlonger : ∀ r : List String, inside new ("/".intercalate (new :: r) ++ "/") = true := by
    intro r
    by_cases hr : r = []
    · have hself : new ++ "/" = inDir new "" := String.append_empty.symm
      rw [hr, String.intercalate_singleton, hself]
      exact inside_inDir new ""
    · rw [intercalate_inDir new hr, inDir, String.append_assoc]
      exact inside_inDir new _
  obtain ⟨⟨r, n⟩, hmem, rfl⟩ := mem_movedEntries.1 he
  cases n with
  | file c m =>
    obtain ⟨f, hf, ⟨hslash, hpath, -⟩ | ⟨hdir, -⟩⟩ := (mem_treeNodes hwithin).1 hmem
    · obtain ⟨r', hr', hpath'⟩ := hwithin.filePath hf hslash
      obtain rfl := (List.cons.inj (hpath.symm.trans hpath')).2
      show inside new ("/".intercalate (new :: r)) = true
      rw [intercalate_inDir new hr']
      exact inside_inDir new _
    · exact absurd hdir (by simp)
  | dir m => exact hlonger r
  | link target => exact hlonger r

/-- **The files after the move** are those of the directory under their new names. -/
theorem mem_files_moved (hwithin : Within dir es) (hes : Extractable es) (hnew : '/' ∉ new.toList)
    {n : String} :
    n ∈ Zip.names ((movedEntries new es).filter (·.isFile)) ↔
      ∃ e ∈ es, e.isFile = true ∧ movedName dir new e.name = n := by
  constructor
  · intro hn
    obtain ⟨e, he, rfl⟩ := Zip.exists_of_mem_names hn
    rw [List.mem_filter, isFile_eq, Bool.not_eq_true'] at he
    obtain ⟨⟨r, n⟩, hmem, rfl⟩ := mem_movedEntries.1 he.1
    obtain ⟨f, hf, ⟨hslash, hpath, rfl⟩ | ⟨rfl, -⟩⟩ := (mem_treeNodes hwithin).1 hmem
    · obtain ⟨r', hr', hpath'⟩ := hwithin.filePath hf hslash
      obtain rfl := (List.cons.inj (hpath.symm.trans hpath')).2
      exact ⟨f, hf, by rw [isFile_eq, hslash]; rfl, movedName_of_entryPath hslash hr' hpath⟩
    · exact absurd he.2 (by simp [treeEntry, Zip.newDirectory, Path.endsInSlash_append_slash])
  · rintro ⟨e, he, hfile, rfl⟩
    rw [isFile_eq, Bool.not_eq_true'] at hfile
    refine Zip.mem_names (List.mem_filter.2 ⟨mem_moved_file hwithin he hfile, ?_⟩)
    obtain ⟨r, hr, hpath⟩ := hwithin.filePath he hfile
    have hplain : ∀ p ∈ r, Path.IsPlain p := fun p hp =>
      (hes.plain e he).isPlain p (by rw [hpath]; exact List.mem_cons_of_mem _ hp)
    have hbase : Path.IsBase (new :: r) := by
      refine ⟨List.forall_mem_cons.2 ⟨hnew, fun p hp => (hplain p hp).slash⟩, ?_⟩
      have hlast := hplain (r.getLast hr) (List.getLast_mem hr)
      refine ⟨new :: r.dropLast, r.getLast hr, ?_, hlast.ne_empty, hlast.ne_current⟩
      rw [List.cons_append, List.dropLast_concat_getLast hr]
    show (!Path.endsInSlash (movedName dir new e.name)) = true
    rw [movedName_of_entryPath hfile hr hpath, Path.endsInSlash_base hbase]
    rfl

end Rebadge.Wheel
