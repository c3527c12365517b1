import Rebadge.Proofs.Digest.Canonical
import Rebadge.Proofs.Record.Replaced
import Rebadge.Proofs.Wheel.Rescanning

/-!
# Wheels that are patched

A patch of a regular wheel succeeds (`patch_succeeds`): the entries of its directory can be unpacked
and added again, the patched archive can be scanned, and the final validation finds for each
replaced file the fresh entry in the record. All that can go wrong is that the system has no place
for the scratch directory or for a path below it (`Room`), that it does not let the archive be
written anew (`Room.replaced`, `Room.deleted`), or that new data is too large for an entry
(`Sized`); a wheel with such data is never patched (`Regular.sized_of_patched`).
-/

namespace Rebadge.Wheel

open Archiver Archiver.Native
open Disk (Fits)
open Record (PlainText NamedInDir packagePrefix renameAll freshEntry)

variable {w w' : Workspace} {c : Config} {path : String} {entries : List (Zip.Entry Content)}
  {s : Scan} {sources : List (String × Content)}

/-! ## Regular wheels -/

/-- A wheel of the package with readable metadata, whose record lists its files in lines of three
fields and names the package and versions in the directory only. -/
structure Regular (c : Config) (s : Scan) (entries : List (Zip.Entry Content)) : Prop where
  named : Text.hasPrefix s.dir (c.distName ++ "-") = true
  plain : ∀ n ∈ s.entries, PlainName n
  noConflict : NoConflict s.entries
  readable : ∀ e ∈ entries, inside s.dir e.name = true → e.intact = true
  text : PlainText s.record.toList
  lists : Lists (Record.parse s.record) entries
  rows : ∀ line ∈ Chars.split '\n' s.record.toList, line ≠ [] → (Chars.split ',' line).length = 3
  namedInDir : ∀ line ∈ Chars.split '\n' s.record.toList, NamedInDir c s.dir line

/-- The tracked files can be read, and are files of the archive outside its directory for
metadata. -/
structure Trackable (c : Config) (d : Disk) (s : Scan) (entries : List (Zip.Entry Content))
    (sources : List (String × Content)) : Prop where
  read : ReadFrom c d sources
  stored : ∀ t ∈ c.trackedFiles, t ∈ Zip.names (entries.filter (·.isFile))
  outside : ∀ t ∈ c.trackedFiles, inside s.dir t = false

/-- There is a place for the scratch directory, the paths of the entries fit there before and after
the move, and the system lets the archive be written anew. -/
structure Room (c : Config) (path : String) (s : Scan) (sources : List (String × Content))
    (entries : List (Zip.Entry Content)) (w : Workspace) : Prop where
  temp : w.disk.isDir w.tempDir = true
  place : ∃ l, HasScratch w l
  fits : ∀ n ∈ s.entries, Fits (Path.join (Act.scratchPath w) n) ∧
    Fits (Path.join (Act.scratchPath w) (movedName s.dir (c.renamed s.dir) n))
  /-- Each replacement is granted once those before it are made. -/
  replaced : ∀ n, Grants w path (replaceEach ((replacements c s sources).take (n + 1)) entries)
  /-- So is the deletion of the directory once all are made. -/
  deleted : Grants w path (Zip.delete s.entries (filledEntries c s sources entries))

/-- All new data can be data of entries: the replaced files, and the other files of the
directory. -/
structure Sized (c : Config) (s : Scan) (sources : List (String × Content))
    (entries : List (Zip.Entry Content)) : Prop where
  metadata : (Content.ofText (newMetadata c s)).fitsEntry = true
  record : (Content.ofText (newRecord c s sources)).fitsEntry = true
  tracked : ∀ p ∈ sources, p.2.fitsEntry = true
  directory : ∀ e ∈ entries, e.isFile = true → inside s.dir e.name = true →
    e.name ∉ [s.metadataPath, s.recordPath] → e.data.fitsEntry = true

/-! ## Tracked files -/

theorem Trackable.mem {d : Disk} (h : Trackable c d s entries sources) {p : String × Content}
    (hp : p ∈ sources) : p.1 ∈ c.trackedFiles := by
  rw [← h.read.names]
  exact List.mem_map_of_mem hp

theorem Trackable.mem_names {d : Disk} (h : Trackable c d s entries sources) :
    ∀ p ∈ sources, p.1 ∈ Zip.names entries := fun p hp =>
  (List.filter_sublist.map _).subset (h.stored p.1 (h.mem hp))

theorem Trackable.sourcesOutside {d : Disk} (h : Trackable c d s entries sources) :
    SourcesOutside s sources := fun p hp => h.outside p.1 (h.mem hp)

/-! ## Sizes -/

/-- What fits an entry has a size that can be written in a record. -/
theorem size_lt {data : Content} (h : data.fitsEntry = true) :
    data.image.length < 0x10000000000000000 := by
  have hle : data.image.length ≤ Zip.maxNewSize := by simpa [Content.fitsEntry] using h
  exact hle.trans_lt (by decide)

theorem Sized.replacements (h : Sized c s sources entries) :
    ∀ p ∈ replacements c s sources, p.2.fitsEntry = true :=
  List.forall_mem_cons.2 ⟨h.metadata, List.forall_mem_cons.2 ⟨h.record, h.tracked⟩⟩

/-- A file of the directory is replaced, or it is one of the others. -/
theorem Sized.filled (h : Sized c s sources entries) {e : Zip.Entry Content}
    (he : e ∈ filledEntries c s sources entries) (hinside : inside s.dir e.name = true)
    (hfile : e.isFile = true) : e.data.fitsEntry = true := by
  obtain ⟨f, hf, rfl⟩ := List.mem_map.1 he
  rw [isFile_eq, filled_name] at hfile
  rw [filled_name] at hinside
  unfold Wheel.filled
  cases hlatest : latest (Wheel.replacements c s sources) f.name with
  | some data => exact h.replacements _ (mem_of_latest hlatest)
  | none =>
    refine h.directory f hf hfile hinside fun hmem => latest_eq_none.1 hlatest ?_
    rw [Wheel.replacements, List.map_cons, List.map_cons]
    rcases List.mem_cons.1 hmem with hname | hmem
    · exact List.mem_cons.2 (.inl hname)
    · exact List.mem_cons_of_mem _ (List.mem_cons.2 (.inl (List.mem_singleton.1 hmem)))

/-! ## The move -/

theorem Regular.isDistInfoOf (h : Regular c s entries) (hscan : scanEntries path entries = .ok s) :
    isDistInfoOf c.distName s.dir = true := by
  obtain ⟨rest, hrest⟩ := Text.hasPrefix_iff.1 h.named
  obtain ⟨front, hfront⟩ := (isDirName_of_scan hscan).suffix
  have hdot : '.' ∉ (c.distName ++ "-").toList := by
    rw [String.toList_append, List.mem_append, not_or]
    exact ⟨dot_not_mem_distName c, by decide⟩
  obtain ⟨middle, hmiddle⟩ := suffix_of_append hdot (hrest.symm.trans hfront)
  have hpre : (c.distName ++ "-").toList.isPrefixOf? s.dir.toList = some rest :=
    List.isPrefixOf?_eq_some_iff_append_eq.2 hrest.symm
  unfold Wheel.isDistInfoOf Text.stripPrefix?
  rw [hpre]
  exact Text.hasSuffix_iff.2 ⟨middle, by rw [String.toList_ofList, hmiddle]⟩

theorem slash_not_mem_distName (hc : c.NamesValid) : '/' ∉ c.distName.toList := fun hmem =>
  absurd ((Record.isWord_distName hc).word _ hmem) (by decide)

theorem Room.written (h : Room c path s sources entries w) {la l : Location}
    (hnamed : Named w.disk path la) (hscratch : HasScratch w l) (es : List (Zip.Entry Content)) :
    HasScratch { w with disk := Native.written w.disk la es } l ∧
      Act.scratchPath { w with disk := Native.written w.disk la es } = Act.scratchPath w := by
  obtain ⟨hlocate, hfree⟩ := hscratch
  have hpath : Act.scratchPath { w with disk := Native.written w.disk la es } =
      Act.scratchPath w := by
    unfold Act.scratchPath
    rw [hnamed.list_written es h.temp]
  have hne : l ≠ la := by
    rintro rfl
    exact hnamed.present hfree
  refine ⟨⟨?_, ?_⟩, hpath⟩
  · rw [hpath]
    exact hnamed.locate_written es hlocate (by simp [hfree])
  · rw [← hfree]
    exact (hnamed.refiled (.zip es) Disk.privateMode).others l hne

theorem join_names {base r : List String} (hbase : Path.IsBase base) {dir : String}
    (hdir : IsDirName dir) (hr : ∀ p ∈ r, '/' ∉ p.toList) :
    Path.join ("/".intercalate base) ("/".intercalate (dir :: r)) =
      "/".intercalate (base ++ dir :: r) := by
  have hslash : ∀ p ∈ dir :: r, '/' ∉ p.toList := List.forall_mem_cons.2 ⟨hdir.slash, hr⟩
  have hrelative : Path.isAbsolute ("/".intercalate (dir :: r)) = false := by
    rw [Path.isAbsolute_intercalate hslash, decide_eq_false_iff_not]
    rintro ⟨hhead, -⟩
    exact hdir.isPlain.ne_empty (by simpa using hhead)
  rw [Path.join_eq hbase hrelative, Text.split_intercalate (by simp) hslash]

/-- The directory itself fits where its METADATA does. -/
theorem fits_dir {base : List String} (hbase : Path.IsBase base) {dir : String}
    (hdir : IsDirName dir) (h : Fits (Path.join ("/".intercalate base) (inDir dir "METADATA"))) :
    Fits ("/".intercalate (base ++ [dir])) := by
  have hfile : ∀ p ∈ ["METADATA"], '/' ∉ p.toList := by decide
  have hname : inDir dir "METADATA" = "/".intercalate [dir, "METADATA"] := by
    rw [intercalate_inDir dir (by simp), String.intercalate_singleton]
  rw [hname, join_names hbase hdir hfile, List.append_cons] at h
  have hlong : Path.IsBase (base ++ [dir]) := hbase.append (by simpa using hdir.isPlain)
  refine h.left (fun p hp => ?_) hlong
  rcases List.mem_append.1 hp with hp | hp
  · exact hlong.slash p hp
  · exact hfile p hp

/-- What an entry stands for fits below the new directory where its moved name does. -/
theorem fits_moved {base r : List String} (hbase : Path.IsBase base) {dir new name : String}
    (hdir : '/' ∉ dir.toList) (hnew : IsDirName new) (hr : ∀ p ∈ r, Path.IsPlain p)
    (hinside : inside dir name = true) (hpre : dir :: r <+: entryPath name)
    (h : Fits (Path.join ("/".intercalate base) (movedName dir new name))) :
    Fits ("/".intercalate (base ++ new :: r)) := by
  obtain ⟨rest, rfl⟩ := exists_inDir hinside
  have hrest : ∀ p ∈ Text.split rest '/', '/' ∉ p.toList := fun p hp => Text.not_mem_of_mem_split hp
  have hne := Text.split_ne_nil rest '/'
  have hname : ∀ d, inDir d rest = "/".intercalate (d :: Text.split rest '/') := fun d => by
    rw [intercalate_inDir d hne, Text.intercalate_split]
  obtain ⟨qs, hqs⟩ : r <+: Text.split rest '/' := by
    have hall := hpre.trans (split_eq (inDir dir rest) ▸ List.prefix_append _ _)
    rw [hname, Text.split_intercalate (by simp) (List.forall_mem_cons.2 ⟨hdir, hrest⟩),
      List.cons_prefix_cons] at hall
    exact hall.2
  rw [movedName_append, hname, join_names hbase hnew hrest, ← hqs, ← List.cons_append,
    ← List.append_assoc] at h
  have hlong : Path.IsBase (base ++ new :: r) :=
    hbase.append (List.forall_mem_cons.2 ⟨hnew.isPlain, hr⟩)
  refine h.left (fun p hp => ?_) hlong
  rcases List.mem_append.1 hp with hp | hp
  · exact hlong.slash p hp
  · exact hrest p (hqs ▸ List.mem_append_right _ hp)

/-- **The directory can be moved.** -/
theorem Room.canMove (h : Room c path s sources entries w) (hsized : Sized c s sources entries)
    (hregular : Regular c s entries) (hscan : scanEntries path entries = .ok s)
    (hnodup : (Zip.names entries).Nodup) (hfork : '/' ∉ c.forkDistName.toList) :
    CanMove c s (scratchBase w) (dirEntries s.dir (filledEntries c s sources entries))
      (Zip.delete s.entries (filledEntries c s sources entries)) := by
  have hes := dirEntries_filled c sources hscan hnodup hregular.plain hregular.noConflict
  have hbase := isBase_scratch w
  have hnew := isDirName_renamed hfork hes.isDirName
  have hfits : ∀ n ∈ s.entries, Fits (Path.join ("/".intercalate (scratchBase w)) n) ∧
      Fits (Path.join ("/".intercalate (scratchBase w)) (movedName s.dir (c.renamed s.dir) n)) := by
    rw [intercalate_scratchBase]
    exact h.fits
  have hmetadata : inDir s.dir "METADATA" ∈ s.entries := by
    obtain ⟨-, -, -, hmetadata, -, hentries⟩ := scanEntries_ok.1 hscan
    rw [hentries, Sorted.mem_sort, List.mem_filter]
    exact ⟨find?_of_entryText hmetadata, inside_inDir s.dir "METADATA"⟩
  have hname : ∀ e ∈ dirEntries s.dir (filledEntries c s sources entries), e.name ∈ s.entries := by
    intro e he
    rw [← hes.names]
    exact Zip.mem_names he
  refine ⟨fun e he => (hfits _ (hname e he)).1, fun e he _ => ?_,
    fits_dir hbase hes.isDirName (hfits _ hmetadata).1, fits_dir hbase hnew ?_, ?_, ?_, ?_⟩
  · obtain ⟨hfilled, hinside⟩ := mem_dirEntries.1 he
    obtain ⟨f, hf, rfl⟩ := List.mem_map.1 hfilled
    rw [filled_name] at hinside
    have hintact := hregular.readable f hf hinside
    unfold filled
    cases latest (replacements c s sources) f.name with
    | none => exact hintact
    | some data => rfl
  · have hmoved := (hfits _ hmetadata).2
    rwa [movedName_append] at hmoved
  · rintro ⟨r, n⟩ hp
    obtain ⟨e, he, hstands⟩ := (mem_treeNodes hes.within).1 hp
    have hr : ∀ p ∈ r, Path.IsPlain p :=
      fun p hp => (isFileName_of_stands hes.extractable he hstands p hp).plain
    exact fits_moved hbase hes.isDirName.slash hnew hr (mem_dirEntries.1 he).2 hstands.isPrefix
      (hfits _ (hname e he)).2
  · rintro ⟨r, n⟩ hp
    obtain ⟨e, he, ⟨hslash, -, rfl⟩ | ⟨rfl, -⟩⟩ := (mem_treeNodes hes.within).1 hp
    · obtain ⟨hfilled, hinside⟩ := mem_dirEntries.1 he
      exact hsized.filled hfilled hinside (by rw [isFile_eq, hslash]; rfl)
    · rfl
  · rw [patchedEntries_eq hscan hnodup hregular.plain hregular.noConflict]
    exact nodup_patched c sources hscan hnodup hregular.plain hregular.noConflict hfork

/-- **The move takes place** on the disk with the replaced entries. -/
theorem Room.exists_move (h : Room c path s sources entries w) (hwf : w.disk.tree.WellFormed)
    (hsized : Sized c s sources entries) (hregular : Regular c s entries)
    (hscan : scanEntries path entries = .ok s) (hnodup : (Zip.names entries).Nodup)
    (hc : c.NamesValid) {la : Location} (hnamed : Named w.disk path la) :
    ∃ d, renameDistInfo c native path s
        { w with disk := Native.written w.disk la (filledEntries c s sources entries) } =
          .ok (c.renamed s.dir) { w with disk := d } ∧
      openZip path { w with disk := d } =
        .ok (patchedEntries c s sources entries) { w with disk := d } := by
  have hfork := slash_not_mem_forkDistName hc
  have hfilled : (Zip.names (filledEntries c s sources entries)).Nodup := by
    rwa [names_filledEntries]
  have hes := dirEntries_filled c sources hscan hnodup hregular.plain hregular.noConflict
  obtain ⟨l, hscratch⟩ := h.place
  obtain ⟨hscratch', hpath⟩ := h.written hnamed hscratch (filledEntries c s sources entries)
  have hbase : scratchBase
      { w with disk := Native.written w.disk la (filledEntries c s sources entries) } =
        scratchBase w := congrArg (Text.split · '/') hpath
  have hcan := h.canMove hsized hregular hscan hnodup hfork
  rw [← hbase] at hcan
  obtain ⟨d, hmove, hstored⟩ :=
    exists_moved (hnamed.stored_written hfilled) (hnamed.wellFormed_written hwf _) hes hfork
      hscratch' hcan (slash_not_mem_distName hc) (hregular.isDistInfoOf hscan)
      (h.deleted.congr rfl rfl)
  rw [patchedEntries_eq hscan hnodup hregular.plain hregular.noConflict] at hstored
  exact ⟨d, hmove, Stored.openZip (w := { w with disk := d }) hstored⟩

/-! ## The record -/

theorem exists_line (htext : PlainText s.record.toList) {n : String}
    (hn : n ∈ (Record.parse s.record).paths) :
    ∃ line ∈ Chars.split '\n' s.record.toList, Record.pathOf line = n.toList ∧ n ≠ "" := by
  rw [Record.paths_parse htext] at hn
  obtain ⟨p, hp, rfl⟩ := List.mem_map.1 hn
  obtain ⟨hp, hne⟩ := List.mem_filter.1 hp
  obtain ⟨line, hline, rfl⟩ := List.mem_map.1 hp
  refine ⟨line, hline, String.toList_ofList.symm, fun hempty => ?_⟩
  rw [← String.toList_inj, String.toList_ofList] at hempty
  exact absurd hempty (by simpa using hne)

theorem comma_not_mem_of_listed (htext : PlainText s.record.toList) {n : String}
    (hn : n ∈ (Record.parse s.record).paths) : ',' ∉ n.toList := by
  obtain ⟨line, -, hpath, -⟩ := exists_line htext hn
  rw [← hpath]
  exact Record.comma_not_mem_pathOf line

theorem metadata_mem_files (hscan : scanEntries path entries = .ok s) :
    s.metadataPath ∈ Zip.names (entries.filter (·.isFile)) := by
  obtain ⟨-, -, -, hmetadata, -, -⟩ := scanEntries_ok.1 hscan
  obtain ⟨e, he, hname⟩ := Zip.exists_of_mem_names (find?_of_entryText hmetadata)
  rw [← hname]
  refine Zip.mem_names (List.mem_filter.2 ⟨he, ?_⟩)
  rw [isFile_eq, hname, show Path.endsInSlash s.metadataPath = false from metadata_isFile s.dir]
  rfl

/-- **The record is renamed as the directory is.** -/
theorem Regular.renameAll_eq (h : Regular c s entries) (hc : c.NamesValid)
    (hscan : scanEntries path entries = .ok s) {n : String}
    (hn : n ∈ Zip.names (entries.filter (·.isFile))) :
    renameAll c n = movedName s.dir (c.renamed s.dir) n := by
  have hlisted : ∀ m ∈ Zip.names (entries.filter (·.isFile)),
      m ∈ (Record.parse s.record).paths := fun m hm =>
    h.lists.mem_iff.2 hm
  obtain ⟨line, hline, hpath, -⟩ := exists_line h.text (hlisted n hn)
  have hnamed := h.namedInDir line hline
  cases hinside : inside s.dir n with
  | true =>
    obtain ⟨rest, rfl⟩ := exists_inDir hinside
    obtain ⟨v, hv⟩ := Text.hasPrefix_iff.1 h.named
    rw [movedName_append]
    exact Record.renameAll_inDir hc ⟨v, hv.symm⟩ hnamed hpath
  | false =>
    have hcomma : ',' ∉ s.dir.toList := by
      have hnot := comma_not_mem_of_listed h.text (hlisted _ (metadata_mem_files hscan))
      intro hmem
      refine hnot ?_
      rw [Scan.metadataPath, inDir, String.toList_append, String.toList_append, List.append_assoc]
      exact List.mem_append_left _ hmem
    rw [movedName_of_not_inside hinside]
    refine Record.renameAll_outside hnamed hcomma hpath fun hpre => ?_
    obtain ⟨rest, hrest⟩ := hpre
    have hyes : inside s.dir n = true := Text.hasPrefix_iff.2 ⟨rest, hrest.symm⟩
    rw [hyes] at hinside
    exact absurd hinside (by simp)

variable (sources) in
theorem Regular.nodup_record (h : Regular c s entries) (hc : c.NamesValid)
    (hscan : scanEntries path entries = .ok s) (hnodup : (Zip.names entries).Nodup) :
    (Record.parse (newRecord c s sources)).paths.Nodup := by
  have hfork := slash_not_mem_forkDistName hc
  have hfinal := nodup_patched c sources hscan hnodup h.plain h.noConflict hfork
  have hlists : Lists (Record.parse (newRecord c s sources)) (patchedEntries c s sources entries) :=
    (lists_patched_iff hc hscan hnodup h.plain h.noConflict h.text h.lists hfinal).2 fun n hn =>
      h.renameAll_eq hc hscan hn
  exact hlists.nodup_iff.2 (hfinal.sublist (List.filter_sublist.map _))

/-! ## The validation -/

/-- What is replaced in the record. -/
def recorded (c : Config) (s : Scan) (sources : List (String × Content)) : List (String × Bytes) :=
  sources.map (fun p => (p.1, p.2.image)) ++ [(s.metadataPath, utf8 (newMetadata c s))]

variable (sources) in
/-- **A replaced file is sound** in the patched archive. -/
theorem Regular.sound (h : Regular c s entries) (hc : c.NamesValid)
    (henc : c.digestEncoding = .standard) (hscan : scanEntries path entries = .ok s)
    (hnodup : (Zip.names entries).Nodup) {n : String} {data : Content}
    (hn : n ∈ Zip.names (entries.filter (·.isFile)))
    (hlatest : latest (replacements c s sources) n = some data)
    (hfind : (recorded c s sources).find? (·.1 == n) = some (n, data.image))
    (hlen : data.image.length < 0x10000000000000000) :
    Sound (patchedEntries c s sources entries) (Record.parse (newRecord c s sources))
      (movedName s.dir (c.renamed s.dir) n) := by
  have hfork := slash_not_mem_forkDistName hc
  have hfinal := nodup_patched c sources hscan hnodup h.plain h.noConflict hfork
  obtain ⟨hwithin, -⟩ := within_filled c sources hscan hnodup h.plain h.noConflict
  obtain ⟨line, hline, hpath, hne⟩ := exists_line h.text (h.lists.mem_iff.2 hn)
  have hcomma : ',' ∈ line := by
    have hnil : line ≠ [] := by
      rintro rfl
      exact hne (String.toList_inj.1 hpath.symm)
    refine Decidable.byContradiction fun hnot => ?_
    have hrow := h.rows line hline hnil
    rw [Chars.split_of_not_mem hnot] at hrow
    exact absurd hrow (by simp)
  have hrow := Record.find?_forFork hc henc h.text hline hcomma hpath hne hfind hlen
    (h.nodup_record sources hc hscan hnodup)
  rw [h.renameAll_eq hc hscan hn] at hrow
  obtain ⟨e, he, rfl⟩ := Zip.exists_of_mem_names hn
  obtain ⟨he, hfile⟩ := List.mem_filter.1 he
  obtain ⟨f, hf, hname, hdata, hintact⟩ := mem_replaced hwithin he hfile hlatest
  have hfile' : f ∈ (patchedEntries c s sources entries).filter (·.isFile) := by
    have hmoved := List.mem_map_of_mem (f := movedName s.dir (c.renamed s.dir)) hn
    rw [← (files_patched hscan hnodup h.plain h.noConflict hfork hfinal).mem_iff] at hmoved
    obtain ⟨g, hg, hgname⟩ := Zip.exists_of_mem_names hmoved
    refine List.mem_filter.2 ⟨hf, ?_⟩
    rw [isFile_eq, hname, ← hgname]
    exact (List.mem_filter.1 hg).2
  have hfound := (Zip.find?_eq_some_iff (hfinal.sublist (List.filter_sublist.map _))).2
    ⟨hfile', hname⟩
  refine ⟨_, f, hrow, hfound, hintact, ?_, ?_⟩
  · rw [hdata]
    have hself := Digest.verify_ofContent data.image data.image .standard
    rw [beq_self_eq_true] at hself
    exact hself
  · rw [hdata]
    rfl

theorem ReadFrom.find?_recorded {d : Disk} (hread : ReadFrom c d sources)
    {p : String × Content} (hp : p ∈ sources) :
    (recorded c s sources).find? (·.1 == p.1) = some (p.1, p.2.image) := by
  cases hfind : (recorded c s sources).find? (·.1 == p.1) with
  | none =>
    have hmem : (p.1, p.2.image) ∈ recorded c s sources :=
      List.mem_append_left _ (List.mem_map_of_mem (f := fun p => (p.1, p.2.image)) hp)
    exact absurd (List.find?_eq_none.1 hfind _ hmem) (by simp)
  | some q =>
    have hsome : ((sources.map fun p => (p.1, p.2.image)).find? (·.1 == p.1)).isSome = true := by
      rw [List.find?_isSome]
      exact ⟨_, List.mem_map_of_mem (f := fun p => (p.1, p.2.image)) hp, beq_self_eq_true _⟩
    obtain ⟨q', hq'⟩ := Option.isSome_iff_exists.1 hsome
    obtain ⟨p', hp', heq⟩ := List.mem_map.1 (List.mem_of_find?_eq_some hq')
    have hname : p'.1 = p.1 := by
      have := List.find?_some hq'
      rw [← heq] at this
      simpa using this
    have hcontent := hread.read hp'
    rw [hname, hread.read hp, Except.ok.injEq] at hcontent
    unfold recorded at hfind
    rw [List.find?_append, hq', Option.some_or] at hfind
    rw [← hfind, ← heq, hname, hcontent]

theorem SourcesOutside.find?_recorded (h : SourcesOutside s sources) :
    (recorded c s sources).find? (·.1 == s.metadataPath) =
      some (s.metadataPath, utf8 (newMetadata c s)) := by
  unfold recorded
  rw [List.find?_append, List.find?_eq_none.2, Option.none_or, List.find?_cons_of_pos (by simp)]
  intro q hq
  obtain ⟨p, hp, rfl⟩ := List.mem_map.1 hq
  have hinside : inside s.dir s.metadataPath = true := inside_inDir s.dir "METADATA"
  have hout := h p hp
  rw [beq_iff_eq]
  rintro hname
  rw [hname, hinside] at hout
  exact absurd hout (by simp)

/-- **The validation accepts** a regular wheel after the move. -/
theorem Regular.verified (h : Regular c s entries) (hc : c.NamesValid)
    (henc : c.digestEncoding = .standard) (hscan : scanEntries path entries = .ok s)
    (hnodup : (Zip.names entries).Nodup) {d : Disk} (htrackable : Trackable c d s entries sources)
    (hsized : Sized c s sources entries)
    (hopen : openZip path w = .ok (patchedEntries c s sources entries) w) :
    verify path (sources.map (·.1) ++ [inDir (c.renamed s.dir) "METADATA"]) w = .ok () w := by
  have hout := htrackable.sourcesOutside
  obtain ⟨s', hscan', hs'⟩ := scanEntries_patched hscan hnodup h.plain h.noConflict
    (slash_not_mem_forkDistName hc) hout
  refine (verify_ok hopen hscan').2 ⟨rfl, fun n hn => ?_⟩
  rw [hs']
  rcases List.mem_append.1 hn with hn | hn
  · obtain ⟨p, hp, rfl⟩ := List.mem_map.1 hn
    have hsound := h.sound sources hc henc hscan hnodup
      (htrackable.stored p.1 (htrackable.mem hp)) (htrackable.read.latest_eq hp)
      (htrackable.read.find?_recorded hp) (size_lt (hsized.tracked p hp))
    rwa [movedName_of_not_inside (hout p hp)] at hsound
  · obtain rfl := List.mem_singleton.1 hn
    have hsound := h.sound sources hc henc hscan hnodup (metadata_mem_files hscan)
      hout.latest_metadata hout.find?_recorded (size_lt hsized.metadata)
    rwa [Scan.metadataPath, movedName_append] at hsound

/-- **A regular wheel is always patched.** -/
theorem patch_succeeds (hwf : w.disk.tree.WellFormed) (hopen : openZip path w = .ok entries w)
    (hscan : scanEntries path entries = .ok s) (hc : c.NamesValid)
    (henc : c.digestEncoding = .standard) (hregular : Regular c s entries)
    (htrackable : Trackable c w.disk s entries sources) (hsized : Sized c s sources entries)
    (hroom : Room c path s sources entries w) : ∃ w', patch c native path w = .ok () w' := by
  have hnodup := nodup_of_openZip hopen
  obtain ⟨la, hnamed⟩ := named_of_open hwf hopen
  obtain ⟨d, hmove, hopen'⟩ := hroom.exists_move hwf hsized hregular hscan hnodup hc hnamed
  refine ⟨{ w with disk := d }, ?_⟩
  rw [patch_eq_move hnamed hopen hscan htrackable.read htrackable.mem_names
    (eachGranted hroom.replaced hsized.replacements)]
  exact Act.bind_ok.2 ⟨_, _, hmove, hregular.verified hc henc hscan hnodup htrackable hsized hopen'⟩

/-- A file of the directory with another name than METADATA and RECORD is moved as it is. -/
theorem SourcesOutside.filled_data (h : SourcesOutside s sources) {e : Zip.Entry Content}
    (hinside : inside s.dir e.name = true) (hother : e.name ∉ [s.metadataPath, s.recordPath]) :
    (filled (latest (replacements c s sources)) e).data = e.data := by
  have hnone : latest (replacements c s sources) e.name = none := by
    rw [List.mem_pair, not_or] at hother
    rw [latest_replacements, h.latest_eq_none hinside, Option.none_or, if_neg hother.2,
      if_neg hother.1]
  unfold filled
  rw [hnone]

/-- **Only what fits is patched.** A patch that succeeds was granted each replacement, and all new
data could be data of entries. -/
theorem Regular.sized_of_patched (hregular : Regular c s entries) (hwf : w.disk.tree.WellFormed)
    (hopen : openZip path w = .ok entries w) (hscan : scanEntries path entries = .ok s)
    (hfork : '/' ∉ c.forkDistName.toList) {u : Unit} (hok : patch c native path w = .ok u w') :
    ∃ sources, ReadFrom c w.disk sources ∧
      EachGranted w path (replacements c s sources) entries ∧
      (SourcesOutside s sources → Sized c s sources entries) := by
  obtain ⟨sources, la, dir, w₁, hnamed, hread, hmem, hgranted, hmove, -⟩ :=
    moved_of_patch_ok hwf hopen hscan hok
  obtain ⟨-, ⟨base, -, hcan⟩, -⟩ := moved_of_written hwf hopen hscan hfork hregular.plain
    hregular.noConflict hnamed hmove
  have hes := dirEntries_filled c sources hscan
    (nodup_of_openZip hopen) hregular.plain hregular.noConflict
  have hfits := hgranted.fits hmem
  rw [replacements, List.forall_mem_cons, List.forall_mem_cons] at hfits
  obtain ⟨hmetadata, hrecord, htracked⟩ := hfits
  refine ⟨sources, hread, hgranted,
    fun hout => ⟨hmetadata, hrecord, htracked, fun e he hfile hinside hother => ?_⟩⟩
  rw [← hout.filled_data hinside hother]
  refine hcan.data_fits hes.within (mem_dirEntries.2 ⟨List.mem_map_of_mem he, ?_⟩) ?_
  · rwa [filled_name]
  · rw [filled_name]
    rwa [isFile_eq, Bool.not_eq_true'] at hfile

/-! ## A plain wheel -/

/-- A wheel without a directory for data. -/
def plainEntries : List (Zip.Entry Content) := [
  { name := "a", data := .bytes [] },
  { name := "p-1.dist-info/METADATA", data := .bytes [] },
  { name := "p-1.dist-info/RECORD"
    data := .ofText "a,,\np-1.dist-info/METADATA,,\np-1.dist-info/RECORD,,\n" }]

/-- What its scan finds. -/
def plainScan : Scan where
  dir := "p-1.dist-info"
  metadata := ""
  record := "a,,\np-1.dist-info/METADATA,,\np-1.dist-info/RECORD,,\n"
  entries := ["p-1.dist-info/METADATA", "p-1.dist-info/RECORD"]

/-- A disk with the wheel and a file to put in it. -/
def plainWorkspace : Workspace where
  disk :=
    { tree := ⟨[(["tmp"], .dir 0o755), (["w"], .file (.zip plainEntries) 0o644),
      (["src"], .dir 0o755), (["src", "a"], .file (.bytes [1]) 0o644)]⟩ }

theorem plain_wellFormed : plainWorkspace.disk.tree.WellFormed :=
  Tree.wellFormed_of_parents (by decide)

theorem plain_open : openZip "w" plainWorkspace = .ok plainEntries plainWorkspace := by rfl

theorem plain_scan : scanEntries "w" plainEntries = .ok plainScan := by rfl

theorem plain_trackable :
    Trackable smallConfig plainWorkspace.disk plainScan plainEntries [("a", .bytes [1])] where
  read := List.Forall₂.cons ⟨rfl, rfl⟩ .nil
  stored := by decide
  outside := by decide

theorem plain_regular : Regular smallConfig plainScan plainEntries where
  named := by decide
  plain := by decide
  noConflict := by decide
  readable := by decide
  text := ⟨by decide +kernel, by decide +kernel, by decide +kernel⟩
  lists := by decide +kernel
  rows := by decide +kernel
  namedInDir := by decide +kernel

theorem plain_room :
    Room smallConfig "w" plainScan [("a", .bytes [1])] plainEntries plainWorkspace where
  temp := by decide
  place := ⟨["tmp", "scratch0"], by rfl, by rfl⟩
  fits := by decide +kernel
  replaced := fun _ => ⟨by rfl, rfl, rfl, rfl⟩
  deleted := ⟨by rfl, rfl, rfl, rfl⟩

theorem plain_sized : Sized smallConfig plainScan [("a", .bytes [1])] plainEntries where
  metadata := by decide +kernel
  record := by
    have hold : plainScan.record.toList = _ := String.toList_ofList
    unfold newRecord Record.forFork Record.renameAll Version.stripLocalVersion Text.replaceAll
    rw [hold]
    simp only [String.toList_ofList]
    decide +kernel
  tracked := by decide
  directory := by decide

theorem plain_succeeds : ∃ w', patch smallConfig native "w" plainWorkspace = .ok () w' :=
  patch_succeeds plain_wellFormed plain_open plain_scan small_namesValid rfl plain_regular
    plain_trackable plain_sized plain_room

/-! ## A name that does not fit -/

/-- A fork with a name of 250 characters. -/
def longConfig : Config := { smallConfig with forkPackage := .ofList (List.replicate 250 'f') }

theorem toList_longName : longConfig.forkPackage.toList = List.replicate 250 'f' :=
  String.toList_ofList

theorem long_namesValid : longConfig.NamesValid := by
  refine ⟨by decide, ?_⟩
  unfold Name.isValid
  rw [toList_longName]
  decide +kernel

theorem long_renamed : (longConfig.renamed plainScan.dir).utf8ByteSize = 262 := by
  have hfork : longConfig.forkDistName.toList = List.replicate 250 'f' := by
    unfold Config.forkDistName Name.normalize
    rw [String.toList_ofList, toList_longName]
    decide +kernel
  have honce : ∀ a ∈ plainScan.dir.toList.inits, a ++ packagePrefix longConfig <+:
      plainScan.dir.toList → a = [] := by
    decide +kernel
  have hname : (longConfig.renamed plainScan.dir).toList = List.replicate 250 'f' ++
      "-1.dist-info".toList := by
    rw [← Record.renamed_dir (by decide +kernel) fun a b hab => honce a ?_ ⟨b, hab.symm⟩]
    · unfold Record.renamed
      rw [Record.forkPrefix_eq, hfork]
      decide +kernel
    · rw [List.mem_inits, hab, List.append_assoc]
      exact List.prefix_append a _
  rw [← String.ofList_toList (s := longConfig.renamed plainScan.dir), hname]
  decide +kernel

theorem long_regular : Regular longConfig plainScan plainEntries where
  named := by decide
  plain := by decide
  noConflict := by decide
  readable := by decide
  text := plain_regular.text
  lists := plain_regular.lists
  rows := plain_regular.rows
  namedInDir := by decide +kernel

theorem long_trackable :
    Trackable longConfig plainWorkspace.disk plainScan plainEntries [("a", .bytes [1])] where
  read := List.Forall₂.cons ⟨rfl, rfl⟩ .nil
  stored := by decide
  outside := by decide

/-- The directory cannot have its new name on disk, although the wheel is regular. -/
theorem long_fails : longConfig.NamesValid ∧ longConfig.digestEncoding = .standard ∧
    openZip "w" plainWorkspace = .ok plainEntries plainWorkspace ∧
    scanEntries "w" plainEntries = .ok plainScan ∧
    Regular longConfig plainScan plainEntries ∧
    Trackable longConfig plainWorkspace.disk plainScan plainEntries [("a", .bytes [1])] ∧
    ¬ ∃ w', patch longConfig native "w" plainWorkspace = .ok () w' := by
  refine ⟨long_namesValid, rfl, plain_open, plain_scan, long_regular, long_trackable, ?_⟩
  rintro ⟨w', hok⟩
  obtain ⟨sources, la, dir, w₁, hnamed, -, -, -, hmove, -⟩ :=
    moved_of_patch_ok plain_wellFormed plain_open plain_scan hok
  obtain ⟨-, ⟨base, hbase, hcan⟩, -⟩ := moved_of_written plain_wellFormed plain_open plain_scan
    (slash_not_mem_forkDistName long_namesValid) long_regular.plain
    long_regular.noConflict hnamed hmove
  have hplain : Path.IsPlain (longConfig.renamed plainScan.dir) :=
    (isDirName_renamed (slash_not_mem_forkDistName long_namesValid)
      (isDirName_of_scan plain_scan)).isPlain
  have hsize : (longConfig.renamed plainScan.dir).utf8ByteSize ≤ Tree.maxNameSize := by
    refine hcan.fits_new.names _ ?_
    rw [Path.split_base (hbase.append (by simpa using hplain))]
    exact List.mem_append_right _ List.mem_cons_self
  rw [long_renamed] at hsize
  exact absurd hsize (by decide)

end Rebadge.Wheel
