import Rebadge.Proofs.Wheel.Passes

/-!
# The contents of a patched wheel

After a patch the archive holds exactly the patched entries: every file of the old archive is there
once, with its last content and under its moved name (`mem_patched`). What the validation has seen
is therefore what METADATA, RECORD and the tracked files are now (`patch_contents`).
-/

namespace Rebadge.Wheel

open Archiver Archiver.Native

variable {w w' : Workspace} {c : Config} {path : String} {entries final : List (Zip.Entry Content)}
  {s : Scan} {sources : List (String × Content)}

/-! ## Names in a directory for metadata -/

theorem distInfoOf?_of_inside {dir n : String} (hdir : IsDirName dir) (h : inside dir n = true) :
    distInfoOf? n = some dir :=
  distInfoOf?_eq_some.2 ⟨Text.hasSuffix_iff.2 hdir.suffix, (Text.hasPrefix_slash hdir.slash).1 h⟩

/-- A scanned archive has one such directory. -/
theorem eq_of_inside (hscan : scanEntries path entries = .ok s) {dir n : String}
    (hdir : IsDirName dir) (hn : n ∈ Zip.names entries) (h : inside dir n = true) : dir = s.dir :=
  (distInfoDir_ok.1 (scanEntries_ok.1 hscan).1).2 n hn dir (distInfoOf?_of_inside hdir h)

theorem endsInSlash_inDir (dir : String) {file : String} (front : List Char) (ch : Char)
    (hfile : file.toList = front ++ [ch]) (hch : ch ≠ '/') :
    Path.endsInSlash (inDir dir file) = false := by
  unfold Path.endsInSlash inDir
  rw [String.toList_append, hfile, ← List.append_assoc, List.getLast?_concat]
  simpa using hch

theorem metadata_isFile (dir : String) : Path.endsInSlash (inDir dir "METADATA") = false :=
  endsInSlash_inDir dir "METADAT".toList 'A' (by decide) (by decide)

theorem record_isFile (dir : String) : Path.endsInSlash (inDir dir "RECORD") = false :=
  endsInSlash_inDir dir "RECOR".toList 'D' (by decide) (by decide)

theorem metadata_ne_record (dir : String) : inDir dir "METADATA" ≠ inDir dir "RECORD" := by
  intro h
  have hlist := congrArg String.toList h
  simp only [inDir, String.toList_append, List.append_cancel_left_eq] at hlist
  exact absurd hlist (by decide)

/-! ## The last contents -/

theorem latest_replacements (n : String) : latest (replacements c s sources) n =
    (latest sources n).or (if n = s.recordPath then some (.ofText (newRecord c s sources))
      else if n = s.metadataPath then some (.ofText (newMetadata c s)) else none) := by
  unfold replacements
  rw [latest, latest, Option.or_assoc]
  congr 1
  by_cases hrecord : n = s.recordPath
  · rw [if_pos hrecord, Option.some_or, if_pos hrecord]
  · rw [if_neg hrecord, Option.none_or, if_neg hrecord]

/-- No source lies in the directory. -/
def SourcesOutside (s : Scan) (sources : List (String × Content)) : Prop :=
  ∀ p ∈ sources, inside s.dir p.1 = false

theorem SourcesOutside.latest_eq_none (h : SourcesOutside s sources) {n : String}
    (hn : inside s.dir n = true) : latest sources n = none := by
  rw [Wheel.latest_eq_none]
  intro hmem
  obtain ⟨p, hp, rfl⟩ := List.mem_map.1 hmem
  exact absurd hn (by simp [h p hp])

theorem SourcesOutside.latest_metadata (h : SourcesOutside s sources) :
    latest (replacements c s sources) s.metadataPath = some (.ofText (newMetadata c s)) := by
  rw [latest_replacements, h.latest_eq_none (n := s.metadataPath) (inside_inDir s.dir "METADATA"),
    Option.none_or, if_neg (show s.metadataPath ≠ s.recordPath from metadata_ne_record s.dir),
    if_pos rfl]

theorem SourcesOutside.latest_record (h : SourcesOutside s sources) :
    latest (replacements c s sources) s.recordPath = some (.ofText (newRecord c s sources)) := by
  rw [latest_replacements, h.latest_eq_none (n := s.recordPath) (inside_inDir s.dir "RECORD"),
    Option.none_or, if_pos rfl]

theorem ReadFrom.latest_eq {d : Disk} (hread : ReadFrom c d sources)
    {p : String × Content} (hp : p ∈ sources) :
    latest (replacements c s sources) p.1 = some p.2 := by
  rw [latest_replacements]
  cases hlatest : latest sources p.1 with
  | none => exact absurd (List.mem_map_of_mem hp) (latest_eq_none.1 hlatest)
  | some data =>
    have hdata : d.read (c.trackedSource p.1) = .ok data := hread.read (mem_of_latest hlatest)
    rw [hread.read hp, Except.ok.injEq] at hdata
    rw [Option.some_or, hdata]

/-! ## Files after the patch -/

theorem filled_data (contents : String → Option Content) (e : Zip.Entry Content) :
    (filled contents e).data = (contents e.name).getD e.data := by
  unfold filled
  cases contents e.name <;> rfl

variable (c sources) in
theorem within_filled (hscan : scanEntries path entries = .ok s)
    (hnodup : (Zip.names entries).Nodup) (hplain : ∀ n ∈ s.entries, PlainName n)
    (hconflict : NoConflict s.entries) :
    Within s.dir ((filledEntries c s sources entries).filter fun e => inside s.dir e.name) ∧
      Extractable ((filledEntries c s sources entries).filter fun e => inside s.dir e.name) := by
  have hes := dirEntries_filled c sources hscan hnodup hplain hconflict
  have hperm := Sorted.sort_perm (fun a b : Zip.Entry Content => Text.le a.name b.name)
    ((filledEntries c s sources entries).filter fun e => inside s.dir e.name)
  exact ⟨fun e he => hes.within e (hperm.mem_iff.2 he), hes.extractable.perm hperm⟩

/-- The archive has an entry of that name with that content. -/
def HasFile (entries : List (Zip.Entry Content)) (name : String) (data : Content) : Prop :=
  ∃ f, Zip.find? entries name = some f ∧ f.data = data

theorem filled_intact {contents : String → Option Content} {e : Zip.Entry Content}
    (h : contents e.name ≠ none) : (filled contents e).intact = true := by
  obtain ⟨data, hdata⟩ := Option.ne_none_iff_exists'.1 h
  unfold filled
  rw [hdata]

/-- **Every file** is there under its moved name, with its last content, and can be read if that is
a new one. -/
theorem mem_patched (hwithin : Within s.dir
    ((filledEntries c s sources entries).filter fun e => inside s.dir e.name)) {e :
    Zip.Entry Content} (he : e ∈ entries) (hfile : e.isFile = true) :
    ∃ f ∈ patchedEntries c s sources entries, f.name = movedName s.dir (c.renamed s.dir) e.name ∧
      f.data = (latest (replacements c s sources) e.name).getD e.data ∧
      (latest (replacements c s sources) e.name ≠ none → f.intact = true) := by
  have hmem : filled (latest (replacements c s sources)) e ∈ filledEntries c s sources entries :=
    List.mem_map_of_mem he
  have hname := filled_name (latest (replacements c s sources)) e
  have hdata := filled_data (latest (replacements c s sources)) e
  cases hinside : inside s.dir e.name with
  | true =>
    have hslash : Path.endsInSlash (filled (latest (replacements c s sources)) e).name = false := by
      rw [hname]
      simpa [isFile_eq] using hfile
    have hmoved : Zip.newFile (movedName s.dir (c.renamed s.dir) _) _ ∈ _ := mem_moved_file hwithin
      (List.mem_filter.2 ⟨hmem, by rw [hname]; exact hinside⟩) hslash
    rw [hname, hdata] at hmoved
    exact ⟨_, List.mem_append_right _ hmoved, rfl, rfl, fun _ => rfl⟩
  | false =>
    rw [movedName_of_not_inside hinside]
    refine ⟨_, List.mem_append_left _ (List.mem_filter.2 ⟨hmem, ?_⟩), hname, hdata, filled_intact⟩
    rw [hname, hinside]
    rfl

theorem file_patched
    (hwithin : Within s.dir
      ((filledEntries c s sources entries).filter fun e => inside s.dir e.name))
    (hnodup : (Zip.names (patchedEntries c s sources entries)).Nodup)
    {e : Zip.Entry Content} (he : e ∈ entries)
    (hfile : e.isFile = true) :
    HasFile (patchedEntries c s sources entries) (movedName s.dir (c.renamed s.dir) e.name)
      ((latest (replacements c s sources) e.name).getD e.data) := by
  obtain ⟨f, hf, hname, hdata, -⟩ := mem_patched hwithin he hfile
  exact ⟨f, (Zip.find?_eq_some_iff hnodup).2 ⟨hf, hname⟩, hdata⟩

theorem renamed_of_inside (hscan : scanEntries path entries = .ok s)
    (hfork : '/' ∉ c.forkDistName.toList)
    (hwithin : Within s.dir
      ((filledEntries c s sources entries).filter fun e => inside s.dir e.name)) {n : String}
    (hn : n ∈ Zip.names (patchedEntries c s sources entries)) (hinside : inside s.dir n = true) :
    c.renamed s.dir = s.dir := by
  have hdir := isDirName_of_scan hscan
  obtain ⟨e, he, rfl⟩ := Zip.exists_of_mem_names hn
  rcases List.mem_append.1 he with hout | hmoved
  · exact absurd (List.mem_filter.1 hout).2 (by simp [hinside])
  · have hnew := distInfoOf?_of_inside (isDirName_renamed hfork hdir)
      (inside_of_mem_movedEntries hwithin hmoved)
    exact Option.some.inj (hnew.symm.trans (distInfoOf?_of_inside hdir hinside))

theorem file_inDir (hwithin : Within s.dir
    ((filledEntries c s sources entries).filter fun e => inside s.dir e.name)) (hnodup :
    (Zip.names (patchedEntries c s sources entries)).Nodup) {file : String} {data : Content} (hmem :
    inDir s.dir file ∈ Zip.names entries) (hslash : Path.endsInSlash (inDir s.dir file) = false)
    (hlatest : latest (replacements c s sources) (inDir s.dir file) = some data) :
    HasFile (patchedEntries c s sources entries) (inDir (c.renamed s.dir) file) data := by
  obtain ⟨e, he, hname⟩ := Zip.exists_of_mem_names hmem
  have hfile : e.isFile = true := by
    rw [isFile_eq, hname, hslash]
    rfl
  have hpatched := file_patched hwithin hnodup he hfile
  rwa [hname, movedName_append, hlatest, Option.getD_some] at hpatched

theorem HasFile.mem_names {name : String} {data : Content} (h : HasFile entries name data) :
    name ∈ Zip.names entries := by
  obtain ⟨f, hfind, -⟩ := h
  rw [← Decidable.not_not (p := name ∈ Zip.names entries), ← Zip.find?_eq_none_iff, hfind]
  exact Option.some_ne_none f

theorem HasFile.entryText {name text : String} (h : HasFile final name (.ofText text))
    (hintact : ∀ e ∈ final, e.intact = true) : entryText path final name = .ok text := by
  obtain ⟨f, hfind, hdata⟩ := h
  refine entryText_ok.2 ⟨f, hfind, hintact f (List.mem_of_find?_eq_some hfind), ?_⟩
  rw [hdata]
  unfold Content.text? Content.ofText Content.image
  rw [ofUtf8?_utf8]

theorem HasFile.sound {record : Record} {name : String} {data : Content} {row : RecordEntry}
    (h : HasFile final name data) (hnodup : (Zip.names final).Nodup)
    (hintact : ∀ e ∈ final, e.intact = true) (hslash : Path.endsInSlash name = false)
    (hrow : record.find? name = some row) (hdigest : digestMatches row.digest data.image = .ok true)
    (hsize : row.size = some data.image.length) :
    Sound final record name := by
  obtain ⟨f, hfind, rfl⟩ := h
  obtain ⟨hmem, rfl⟩ := (Zip.find?_eq_some_iff hnodup).1 hfind
  have hfile : f.isFile = true := by
    rw [isFile_eq, hslash]
    rfl
  have hstored : Zip.find? (final.filter (·.isFile)) f.name = some f :=
    (Zip.find?_eq_some_iff (hnodup.sublist (List.filter_sublist.map _))).2
      ⟨List.mem_filter.2 ⟨hmem, hfile⟩, rfl⟩
  exact ⟨row, f, hrow, hstored, hintact f hmem, hdigest, hsize⟩

/-- **A scan of the patched archive** finds the new directory and the new RECORD. -/
theorem scan_patched (hscan : scanEntries path entries = .ok s)
    (hfork : '/' ∉ c.forkDistName.toList)
    (hrecord : HasFile final (inDir (c.renamed s.dir) "RECORD") (.ofText (newRecord c s sources)))
    {s' : Scan} (hscan' : scanEntries path final = .ok s') :
    s'.dir = c.renamed s.dir ∧ s'.record = newRecord c s sources := by
  have hdir : c.renamed s.dir = s'.dir :=
    eq_of_inside hscan' (isDirName_renamed hfork (isDirName_of_scan hscan)) hrecord.mem_names
      (inside_inDir _ _)
  refine ⟨hdir.symm, ?_⟩
  obtain ⟨e, hfind, -, htext⟩ := entryText_ok.1 (scanEntries_ok.1 hscan').2.2.2.2.1
  obtain ⟨f, hfind', hdata⟩ := hrecord
  have hpath : s'.recordPath = inDir (c.renamed s.dir) "RECORD" := by
    rw [hdir]
    rfl
  rw [hpath, hfind', Option.some.injEq] at hfind
  rw [← hfind, hdata, Content.text?, Content.ofText, Content.image, ofUtf8?_utf8] at htext
  exact (Except.ok.inj htext).symm

/-! ## The result -/

/-- What a patch makes of an archive. -/
structure IsPatched (c : Config) (d : Disk) (s : Scan) (entries : List (Zip.Entry Content))
    (sources : List (String × Content)) (final : List (Zip.Entry Content)) : Prop where
  /-- The sources are the contents of the tracked files on disk. -/
  read : ReadFrom c d sources
  /-- The entries outside the directory come first, in their order, and then its tree. -/
  eq : final = patchedEntries c s sources entries
  nodup : (Zip.names final).Nodup
  moved : ∀ n ∈ Zip.names final, inside s.dir n = true → c.renamed s.dir = s.dir
  tracked : ∀ p ∈ sources, HasFile final p.1 p.2
  metadata : HasFile final (inDir (c.renamed s.dir) "METADATA") (.ofText (newMetadata c s))
  record : HasFile final (inDir (c.renamed s.dir) "RECORD") (.ofText (newRecord c s sources))
  /-- All other files keep their contents. -/
  others : ∀ e ∈ entries, e.isFile = true → e.name ∉ c.trackedFiles → e.name ≠ s.metadataPath →
    e.name ≠ s.recordPath → HasFile final (movedName s.dir (c.renamed s.dir) e.name) e.data
  /-- The record has digest and size of METADATA and of the tracked files. -/
  sound : ∀ p ∈ c.trackedFiles ++ [inDir (c.renamed s.dir) "METADATA"],
    Sound final (Record.parse (newRecord c s sources)) p

/-- **The archive after a patch.** -/
theorem patch_contents (hwf : w.disk.tree.WellFormed) (hopen : openZip path w = .ok entries w)
    (hscan : scanEntries path entries = .ok s) (hfork : '/' ∉ c.forkDistName.toList)
    (htracked : ∀ t ∈ c.trackedFiles, inside s.dir t = false)
    (hplain : ∀ n ∈ s.entries, PlainName n) (hconflict : NoConflict s.entries)
    (hok : patch c native path w = .ok () w') :
    ∃ sources final, openZip path w' = .ok final w' ∧
      IsPatched c w.disk s entries sources final := by
  obtain ⟨sources, d₀, d, la, hread, hmem, hstored, hverify⟩ :=
    patched_of_ok hwf hopen hscan hfork hplain hconflict hok
  have hnodup := hstored.nodup
  have hout : SourcesOutside s sources := by
    intro p hp
    refine htracked p.1 ?_
    rw [← hread.names]
    exact List.mem_map_of_mem hp
  obtain ⟨hwithin, -⟩ := within_filled c sources hscan (nodup_of_openZip hopen) hplain hconflict
  obtain ⟨-, -, -, hmetadata, hrecord, -⟩ := scanEntries_ok.1 hscan
  have hmetadata' := file_inDir hwithin hnodup (find?_of_entryText hmetadata)
    (metadata_isFile s.dir) hout.latest_metadata
  have hrecord' := file_inDir hwithin hnodup (find?_of_entryText hrecord)
    (record_isFile s.dir) hout.latest_record
  -- What the validation has opened and scanned is the patched archive.
  have hopen' : openZip path { w with disk := d } = .ok (patchedEntries c s sources entries)
      { w with disk := d } :=
    Stored.openZip (w := { w with disk := d }) hstored
  obtain ⟨s', hscan', rfl, hsound⟩ := sound_of_verify hopen' hverify
  obtain ⟨-, hs'⟩ := scan_patched hscan hfork hrecord' hscan'
  rw [hs', hread.names] at hsound
  refine ⟨sources, _, hopen', hread, rfl, hnodup,
    fun n hn => renamed_of_inside hscan hfork hwithin hn, fun p hp => ?_, hmetadata', hrecord',
    fun e he hfile hnot hnotMetadata hnotRecord => ?_, hsound⟩
  · -- The validation has seen a file, so the entry was one before.
    obtain ⟨e, he, hname⟩ := Zip.exists_of_mem_names (hmem p hp)
    have htrackedMem : p.1 ∈ c.trackedFiles := by
      rw [← hread.names]
      exact List.mem_map_of_mem hp
    obtain ⟨-, f, -, hfind, -⟩ := hsound p.1 (List.mem_append_left _ htrackedMem)
    have hfile : e.isFile = true := by
      have hf := (List.mem_filter.1 (List.mem_of_find?_eq_some hfind)).2
      have hfname : f.name = p.1 := by simpa using List.find?_some hfind
      rw [isFile_eq, hfname] at hf
      rwa [isFile_eq, hname]
    have hpatched := file_patched hwithin hnodup he hfile
    rwa [hname, hread.latest_eq hp, movedName_of_not_inside (hout p hp), Option.getD_some]
    at hpatched
  · have hpatched := file_patched hwithin hnodup he hfile
    have hnone : latest (replacements c s sources) e.name = none := by
      rw [latest_replacements, if_neg hnotRecord, if_neg hnotMetadata, Option.or_none,
        latest_eq_none, hread.names]
      exact hnot
    rwa [hnone, Option.getD_none] at hpatched

/-! ## A small wheel -/

/-- A fork of the package `p`. -/
def smallConfig : Config :=
  { package := "p", forkPackage := "f", trackedFiles := ["a"], sourceRoot := "src" }

/-- A wheel of the package, with a directory for data. -/
def smallEntries : List (Zip.Entry Content) := [
  { name := "a", data := .bytes [] },
  { name := "p-1.data/b", data := .bytes [] },
  { name := "p-1.dist-info/METADATA", data := .bytes [] },
  { name := "p-1.dist-info/RECORD"
    data := .ofText "a,,\np-1.data/b,,\np-1.dist-info/METADATA,,\np-1.dist-info/RECORD,,\n" }]

/-- What its scan finds. -/
def smallScan : Scan where
  dir := "p-1.dist-info"
  metadata := ""
  record := "a,,\np-1.data/b,,\np-1.dist-info/METADATA,,\np-1.dist-info/RECORD,,\n"
  entries := ["p-1.dist-info/METADATA", "p-1.dist-info/RECORD"]

/-- A disk with the wheel and a file to put in it. -/
def smallWorkspace : Workspace where
  disk :=
    { tree := ⟨[(["tmp"], .dir 0o755), (["w"], .file (.zip smallEntries) 0o644),
      (["src"], .dir 0o755), (["src", "a"], .file (.bytes [1]) 0o644)]⟩ }

/-- An act ended well. -/
def succeeds (r : EStateM.Result Failure Workspace Unit) : Bool :=
  match r with
  | .ok .. => true
  | .error .. => false

theorem exists_of_succeeds {act : Act Unit} (h : succeeds (act w) = true) :
    ∃ w', act w = .ok () w' := by
  cases hresult : act w with
  | ok u w' => exact ⟨w', rfl⟩
  | error e w' => simp [hresult, succeeds] at h

/-- The file that is put into the wheel. -/
def smallSources : List (String × Content) := [("a", .bytes [1])]

/-- The record that the patch writes. -/
def smallRecord : String :=
  "a,sha256=S/USLzRFVMU73i67jNK349FgCtYxw4Wl18ziPHeFRZo=,1
f-1.data/b,,
f-1.dist-info/METADATA,sha256=47DEQpj8HBSa+/TImW+5JCeuQeRkm5NMpJWZG3hSuFU=,0
f-1.dist-info/RECORD,,
"

theorem small_wellFormed : smallWorkspace.disk.tree.WellFormed :=
  Tree.wellFormed_of_parents (by decide)

theorem small_open : openZip "w" smallWorkspace = .ok smallEntries smallWorkspace := by rfl

theorem small_scan : scanEntries "w" smallEntries = .ok smallScan := by rfl

set_option maxRecDepth 100000 in
theorem small_record : newRecord smallConfig smallScan smallSources = smallRecord := by
  have hold : smallScan.record.toList = _ := String.toList_ofList
  have hnew : smallRecord.toList = _ := String.toList_ofList
  rw [← String.toList_inj, hnew]
  unfold newRecord Record.forFork Record.renameAll Version.stripLocalVersion Text.replaceAll
  rw [hold]
  simp only [String.toList_ofList]
  decide +kernel

set_option maxRecDepth 100000 in
theorem small_rows : (Record.parse smallRecord).find? "a" =
      some ⟨"a", some "sha256=S/USLzRFVMU73i67jNK349FgCtYxw4Wl18ziPHeFRZo=", some 1⟩ ∧
    (Record.parse smallRecord).find? "f-1.dist-info/METADATA" =
      some ⟨"f-1.dist-info/METADATA", some "sha256=47DEQpj8HBSa+/TImW+5JCeuQeRkm5NMpJWZG3hSuFU=",
        some 0⟩ := by
  have hnew : smallRecord.toList = _ := String.toList_ofList
  unfold Record.parse
  rw [hnew]
  decide +kernel

theorem small_digests :
    Digest.verify "sha256=S/USLzRFVMU73i67jNK349FgCtYxw4Wl18ziPHeFRZo=" [1] = .ok true ∧
    Digest.verify "sha256=47DEQpj8HBSa+/TImW+5JCeuQeRkm5NMpJWZG3hSuFU=" [] = .ok true := by
  decide +kernel

theorem small_moves : ∃ w', (renameDistInfo smallConfig native "w" smallScan >>= fun _ => pure ())
    { smallWorkspace with
      disk := written smallWorkspace.disk ["w"]
        (filledEntries smallConfig smallScan smallSources smallEntries) } = .ok () w' := by
  refine exists_of_succeeds ?_
  unfold filledEntries replacements
  rw [small_record]
  decide +kernel

/-- The entries that the patch ends with. -/
def smallPatched : List (Zip.Entry Content) :=
  patchedEntries smallConfig smallScan smallSources smallEntries

theorem small_names : Zip.names smallPatched =
    ["a", "p-1.data/b", "f-1.dist-info/", "f-1.dist-info/METADATA", "f-1.dist-info/RECORD"] := by
  decide +kernel

theorem small_intact : ∀ e ∈ smallPatched, e.intact = true :=
  List.all_eq_true.1 (by decide +kernel)

theorem small_scan_patched (hmetadata : HasFile smallPatched "f-1.dist-info/METADATA" (.ofText ""))
    (hrecord : HasFile smallPatched "f-1.dist-info/RECORD" (.ofText smallRecord)) :
    scanEntries "w" smallPatched = .ok ⟨"f-1.dist-info", "", smallRecord,
      ["f-1.dist-info/", "f-1.dist-info/METADATA", "f-1.dist-info/RECORD"]⟩ := by
  rw [scanEntries_ok, small_names]
  exact ⟨by decide +kernel, by decide +kernel, by decide +kernel, hmetadata.entryText small_intact,
    hrecord.entryText small_intact, by decide +kernel⟩

/-- The patch succeeds. Its stages are evaluated one by one, so that no text has to be read from its
bytes. -/
theorem small_succeeds : ∃ w', patch smallConfig native "w" smallWorkspace = .ok () w' := by
  have hplain : ∀ n ∈ smallScan.entries, PlainName n := by decide
  have hconflict : NoConflict smallScan.entries := by decide
  have hread : ReadFrom smallConfig smallWorkspace.disk smallSources := .cons ⟨rfl, rfl⟩ .nil
  have hout : SourcesOutside smallScan smallSources := List.forall_mem_singleton.2 (by decide)
  obtain ⟨la, hnamed⟩ := named_of_open small_wellFormed small_open
  obtain rfl : la = ["w"] := Except.ok.inj (hnamed.locate.symm.trans rfl)
  obtain ⟨w', hmoves⟩ := small_moves
  obtain ⟨dir, w₁, hmove, -⟩ := Act.bind_ok.1 hmoves
  obtain ⟨rfl, -, d₀, d, rfl, hstored⟩ :=
    moved_of_written small_wellFormed small_open small_scan (by decide) hplain
      hconflict hnamed hmove
  have hopen := Stored.openZip (w := { smallWorkspace with disk := d }) hstored
  have hnodup := hstored.nodup
  obtain ⟨hwithin, -⟩ :=
    within_filled smallConfig smallSources small_scan (nodup_of_openZip small_open) hplain hconflict
  have hfirst : { name := "a", data := .bytes [] } ∈ smallEntries := List.mem_cons_self
  have htracked := file_patched hwithin hnodup hfirst rfl
  have hmetadata := file_inDir hwithin hnodup (by decide)
    (metadata_isFile smallScan.dir) hout.latest_metadata
  have hrecord := file_inDir hwithin hnodup (by decide)
    (record_isFile smallScan.dir) hout.latest_record
  rw [small_record] at hrecord
  have hscan := small_scan_patched hmetadata hrecord
  have hgranted : EachGranted smallWorkspace "w" (replacements smallConfig smallScan smallSources)
      smallEntries := by
    refine eachGranted (fun n => ⟨by rfl, rfl, rfl, rfl⟩) ?_
    unfold replacements
    rw [small_record]
    decide +kernel
  refine ⟨_, (patch_eq_move hnamed small_open small_scan hread (by decide) hgranted).trans
    (Act.bind_ok.2 ⟨_, _, hmove, (verify_ok hopen hscan).2 ⟨rfl, ?_⟩⟩)⟩
  refine List.forall_mem_cons.2 ⟨?_, List.forall_mem_singleton.2 ?_⟩
  · exact htracked.sound hnodup small_intact (by decide) small_rows.1 small_digests.1 rfl
  · exact hmetadata.sound hnodup small_intact (by decide) small_rows.2 small_digests.2 rfl

theorem patch_contents_small :
    ∃ w' sources final, patch smallConfig native "w" smallWorkspace = .ok () w' ∧
    openZip "w" w' = .ok final w' ∧
    IsPatched smallConfig smallWorkspace.disk smallScan smallEntries sources final := by
  obtain ⟨w', hok⟩ := small_succeeds
  obtain ⟨sources, final, hopen, hpatched⟩ :=
    patch_contents small_wellFormed small_open small_scan (by decide)
      (by decide) (by decide) (by decide) hok
  exact ⟨w', sources, final, hok, hopen, hpatched⟩

end Rebadge.Wheel
