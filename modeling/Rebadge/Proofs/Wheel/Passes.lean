import Rebadge.Proofs.Wheel.Directory
import Rebadge.Proofs.Wheel.Verifying
import Rebadge.Wheel.Patch

/-!
# The passes of a patch

All replacements together give each entry its last content (`replaceEach_eq`). With the move behind
them they leave the entries outside the directory in their order and its tree under the new name
(`patched_of_ok`).
-/

namespace Rebadge.Wheel

open Archiver Archiver.Native

variable {w w' : Workspace} {c : Config} {path : String} {entries : List (Zip.Entry Content)}
  {s : Scan} {sources : List (String × Content)}

/-! ## Replacements -/

/-- The content that the last of several replacements puts in an entry. -/
def latest : List (String × Content) → String → Option Content
  | [], _ => none
  | p :: ps, n => (latest ps n).or (if n = p.1 then some p.2 else none)

/-- An entry with another content, if there is one for it. -/
def filled (contents : String → Option Content) (e : Zip.Entry Content) : Zip.Entry Content :=
  match contents e.name with
  | some data =>
    { name := e.name, data, method := .deflated, mode := some (Zip.regularMode e.mode) }
  | none => { e with mode := some (Zip.regularMode e.mode) }

/-- The action with the same effect. -/
def filling (contents : String → Option Content) (n : String) : Zip.Action Content :=
  match contents n with
  | some data => .replace data
  | none => .keep

theorem filling_apply (contents : String → Option Content) (e : Zip.Entry Content) :
    (filling contents e.name).apply e = some (filled contents e) := by
  unfold filling filled
  cases contents e.name <;> rfl

theorem edit_filling (contents : String → Option Content) (entries : List (Zip.Entry Content)) :
    Zip.edit (filling contents) entries = entries.map (filled contents) := by
  unfold Zip.edit
  simp only [filling_apply]
  exact congrFun List.filterMap_eq_map' entries

theorem replaceEach_edit (ps : List (String × Content)) (contents : String → Option Content)
    (entries : List (Zip.Entry Content)) : replaceEach ps (Zip.edit (filling contents) entries) =
      Zip.edit (filling fun n => (latest ps n).or (contents n)) entries := by
  induction ps generalizing contents with
  | nil => rfl
  | cons p ps ih =>
    have hone : Zip.replace p.1 p.2 (Zip.edit (filling contents) entries) =
        Zip.edit (filling fun n => (if n = p.1 then some p.2 else none).or (contents n))
        entries := by
      unfold Zip.replace
      rw [Zip.edit_edit]
      refine Zip.edit_congr fun n _ => ?_
      unfold filling Zip.replacing
      by_cases hn : n = p.1
      · simp only [if_pos hn, Option.some_or]
        cases contents n <;> rfl
      · simp only [if_neg hn, Option.none_or]
        cases contents n <;> rfl
    show replaceEach ps (Zip.replace p.1 p.2 (Zip.edit (filling contents) entries)) = _
    rw [hone, ih]
    simp only [latest, Option.or_assoc]

/-- **All replacements.** -/
theorem replaceEach_eq (p : String × Content) (ps : List (String × Content))
    (entries : List (Zip.Entry Content)) :
    replaceEach (p :: ps) entries = entries.map (filled (latest (p :: ps))) := by
  have hone : Zip.replace p.1 p.2 entries =
      Zip.edit (filling fun n => if n = p.1 then some p.2 else none) entries := by
    refine Zip.edit_congr fun n _ => ?_
    unfold filling Zip.replacing
    by_cases hn : n = p.1
    · simp only [if_pos hn]
    · simp only [if_neg hn]
  show replaceEach ps (Zip.replace p.1 p.2 entries) = _
  rw [hone, replaceEach_edit, edit_filling]
  rfl

theorem latest_eq_none {ps : List (String × Content)} {n : String} :
    latest ps n = none ↔ n ∉ ps.map (·.1) := by
  induction ps with
  | nil => simp [latest]
  | cons p ps ih =>
    rw [latest, Option.or_eq_none_iff, ih, List.map_cons, List.mem_cons, not_or, and_comm]
    by_cases hn : n = p.1 <;> simp [hn]

theorem mem_of_latest {ps : List (String × Content)} {n : String} {data : Content}
    (h : latest ps n = some data) : (n, data) ∈ ps := by
  induction ps with
  | nil => exact absurd h (by simp [latest])
  | cons p ps ih =>
    rw [latest] at h
    cases hlater : latest ps n with
    | some later =>
      rw [hlater, Option.some_or] at h
      exact List.mem_cons_of_mem _ (ih (hlater.trans h))
    | none =>
      rw [hlater, Option.none_or] at h
      split at h
      · next hn =>
        rw [hn, ← Option.some.inj h]
        exact List.mem_cons_self
      · exact absurd h (by simp)

/-! ## Reading the sources -/

/-- The contents of the tracked files, as the disk has them. -/
def ReadFrom (c : Config) (d : Disk) (sources : List (String × Content)) : Prop :=
  List.Forall₂ (fun t p => p.1 = t ∧ d.read (c.trackedSource t) = .ok p.2) c.trackedFiles sources

theorem readSource_ok {t : String} {p : String × Content} : c.readSource t w = .ok p w' ↔
    w = w' ∧ p.1 = t ∧ w.disk.read (c.trackedSource t) = .ok p.2 := by
  unfold Config.readSource
  simp only [Act.bind_ok, Act.disk_ok, Act.ofExcept_ok, Act.pure_ok, except_mapError_ok]
  constructor
  · rintro ⟨_, _, ⟨rfl, rfl⟩, content, _, ⟨hread, rfl⟩, rfl, rfl⟩
    exact ⟨rfl, rfl, hread⟩
  · rintro ⟨rfl, rfl, hread⟩
    exact ⟨w.disk, w, ⟨rfl, rfl⟩, p.2, w, ⟨hread, rfl⟩, rfl, rfl⟩

theorem readSources_ok : c.readSources w = .ok sources w' ↔ w = w' ∧ ReadFrom c w.disk sources := by
  unfold Config.readSources ReadFrom
  generalize c.trackedFiles = ts
  induction ts generalizing sources w w' with
  | nil =>
    rw [List.mapM_nil, Act.pure_ok, List.forall₂_nil_left_iff, and_comm]
    exact and_congr_right fun _ => eq_comm
  | cons t ts ih =>
    rw [List.mapM_cons, List.forall₂_cons_left_iff]
    simp only [Act.bind_ok, readSource_ok, Act.pure_ok, ih]
    constructor
    · rintro ⟨p, _, ⟨rfl, hp⟩, ps, _, ⟨rfl, hps⟩, rfl, rfl⟩
      exact ⟨rfl, p, ps, hp, hps, rfl⟩
    · rintro ⟨rfl, p, ps, hp, hps, rfl⟩
      exact ⟨p, w, ⟨rfl, hp⟩, ps, w, ⟨rfl, hps⟩, rfl, rfl⟩

theorem ReadFrom.names {d : Disk} (h : ReadFrom c d sources) :
    sources.map (·.1) = c.trackedFiles := by
  unfold ReadFrom at h
  generalize c.trackedFiles = ts at h ⊢
  induction h with
  | nil => rfl
  | cons hp _ ih => rw [List.map_cons, hp.1, ih]

theorem ReadFrom.read {d : Disk} (h : ReadFrom c d sources)
    {p : String × Content} (hp : p ∈ sources) : d.read (c.trackedSource p.1) = .ok p.2 := by
  unfold ReadFrom at h
  generalize c.trackedFiles = ts at h
  induction h with
  | nil => exact absurd hp List.not_mem_nil
  | cons hfirst _ ih =>
    rcases List.mem_cons.1 hp with rfl | hp
    · rw [hfirst.1]
      exact hfirst.2
    · exact ih hp

/-! ## What a patch makes of an archive -/

/-- The text of METADATA after the patch. -/
def newMetadata (c : Config) (s : Scan) : String := Metadata.forFork s.metadata c

/-- The text of RECORD after the patch. -/
def newRecord (c : Config) (s : Scan) (sources : List (String × Content)) : String :=
  Record.forFork s.record
    (sources.map (fun p => (p.1, p.2.image)) ++ [(s.metadataPath, utf8 (newMetadata c s))]) c

/-- The replacements of a patch, in their order. -/
def replacements (c : Config) (s : Scan) (sources : List (String × Content)) :
    List (String × Content) :=
  (s.metadataPath, .ofText (newMetadata c s)) ::
    (s.recordPath, .ofText (newRecord c s sources)) :: sources

/-- The entries with their last contents, before the move. -/
def filledEntries (c : Config) (s : Scan) (sources : List (String × Content))
    (entries : List (Zip.Entry Content)) : List (Zip.Entry Content) :=
  entries.map (filled (latest (replacements c s sources)))

/-- The entries after the patch: those outside the directory, and the tree of the directory under
its new name. -/
def patchedEntries (c : Config) (s : Scan) (sources : List (String × Content))
    (entries : List (Zip.Entry Content)) : List (Zip.Entry Content) :=
  (filledEntries c s sources entries).filter (fun e => !inside s.dir e.name) ++
    movedEntries (c.renamed s.dir)
    ((filledEntries c s sources entries).filter fun e => inside s.dir e.name)

theorem filled_name (contents : String → Option Content) (e : Zip.Entry Content) :
    (filled contents e).name = e.name := by
  unfold filled
  cases contents e.name <;> rfl

variable (c entries s sources) in
theorem names_filledEntries :
    Zip.names (filledEntries c s sources entries) = Zip.names entries := by
  unfold filledEntries Zip.names
  rw [List.map_map]
  exact List.map_congr_left fun e _ => filled_name _ e

theorem names_filter (p : String → Bool) (es : List (Zip.Entry Content)) :
    Zip.names (es.filter fun e => p e.name) = (Zip.names es).filter p := by
  unfold Zip.names
  rw [List.filter_map]
  rfl

theorem mem_names_kept {n : String}
    (h : n ∈ Zip.names ((filledEntries c s sources entries).filter fun e => !inside s.dir e.name)) :
    n ∈ Zip.names entries ∧ inside s.dir n = false := by
  rw [names_filter (fun n => !inside s.dir n), names_filledEntries, List.mem_filter,
    Bool.not_eq_true'] at h
  exact h

theorem replaceEach_replacements :
    replaceEach (replacements c s sources) entries = filledEntries c s sources entries :=
  replaceEach_eq (s.metadataPath, .ofText (newMetadata c s))
    ((s.recordPath, .ofText (newRecord c s sources)) :: sources) entries

/-- Once entries have been replaced, deletion changes nothing else. -/
theorem delete_filledEntries (hscan : scanEntries path entries = .ok s) :
    Zip.delete s.entries (filledEntries c s sources entries) =
      (filledEntries c s sources entries).filter fun e => !inside s.dir e.name := by
  obtain ⟨-, -, -, -, -, hentries⟩ := scanEntries_ok.1 hscan
  unfold Zip.delete Zip.edit
  rw [← List.filterMap_eq_filter]
  refine List.filterMap_congr fun e he => ?_
  have hname : e.name ∈ s.entries ↔ inside s.dir e.name = true := by
    have hmem := Zip.mem_names he
    rw [names_filledEntries c entries s sources] at hmem
    rw [hentries, Sorted.mem_sort, List.mem_filter]
    exact and_iff_right hmem
  have hmode : { e with mode := some (Zip.regularMode e.mode) } = e := by
    unfold filledEntries at he
    obtain ⟨f, -, rfl⟩ := List.mem_map.1 he
    unfold filled
    cases latest (replacements c s sources) f.name <;> simp only [Zip.regularMode_regularMode]
  unfold Zip.deleting Option.guard
  by_cases hinside : inside s.dir e.name = true
  · rw [if_pos (hname.2 hinside), if_neg (by simp [hinside])]
    rfl
  · rw [if_neg (mt hname.1 hinside), if_pos (by simpa using hinside)]
    exact congrArg some hmode

variable (c sources) in
theorem dirEntries_filled (hscan : scanEntries path entries = .ok s)
    (hnodup : (Zip.names entries).Nodup) (hplain : ∀ n ∈ s.entries, PlainName n)
    (hconflict : NoConflict s.entries) :
    DirEntries (filledEntries c s sources entries) s
    (dirEntries s.dir (filledEntries c s sources entries)) :=
  dirEntries_spec hscan hnodup (names_filledEntries c entries s sources) hplain hconflict

/-! ## Running the passes -/

theorem patchedEntries_eq (hscan : scanEntries path entries = .ok s)
    (hnodup : (Zip.names entries).Nodup) (hplain : ∀ n ∈ s.entries, PlainName n)
    (hconflict : NoConflict s.entries) :
    Zip.delete s.entries (filledEntries c s sources entries) ++
        movedEntries (c.renamed s.dir) (dirEntries s.dir (filledEntries c s sources entries)) =
      patchedEntries c s sources entries := by
  unfold patchedEntries
  rw [delete_filledEntries hscan,
    movedEntries_dirEntries (dirEntries_filled c sources hscan hnodup hplain hconflict)]

/-- What a patch does at the end. -/
def concluded (c : Config) (path : String) (s : Scan)
    (sources : List (String × Content)) : Act Unit := do
  let dir ← renameDistInfo c native path s
  verify path (sources.map (·.1) ++ [inDir dir "METADATA"])

/-- **The start of a patch**, where the archive and the tracked files can be read. -/
theorem patch_eq (hopen : openZip path w = .ok entries w) (hscan : scanEntries path entries = .ok s)
    (hread : ReadFrom c w.disk sources) : patch c native path w =
      (replacing path (replacements c s sources) >>= fun _ => concluded c path s sources) w := by
  have hassoc : (replacing path (replacements c s sources) >>= fun _ =>
        concluded c path s sources) =
      native.replaceEntry path s.metadataPath (.ofText (newMetadata c s)) >>= fun _ =>
        native.replaceEntry path s.recordPath (.ofText (newRecord c s sources)) >>= fun _ =>
          replacing path sources >>= fun _ => concluded c path s sources := by
    unfold replacing replacements
    simp only [List.forM, bind_assoc]
    rfl
  rw [hassoc]
  unfold patch
  rw [Act.bind_of_ok (scan_ok.2 ⟨rfl, entries, hopen, hscan⟩),
    Act.bind_of_ok (readSources_ok.2 ⟨rfl, hread⟩)]
  rfl

theorem mem_replacements (hscan : scanEntries path entries = .ok s)
    (hmem : ∀ p ∈ sources, p.1 ∈ Zip.names entries) :
    ∀ p ∈ replacements c s sources, p.1 ∈ Zip.names entries := by
  obtain ⟨-, -, -, hmetadata, hrecord, -⟩ := scanEntries_ok.1 hscan
  exact List.forall_mem_cons.2 ⟨find?_of_entryText hmetadata,
    List.forall_mem_cons.2 ⟨find?_of_entryText hrecord, hmem⟩⟩

theorem afterReplacing_replacements (w : Workspace) (la : Location) :
    afterReplacing w w la entries (replacements c s sources) =
      { w with disk := written w.disk la (filledEntries c s sources entries) } := by
  rw [← replaceEach_replacements]
  rfl

/-- Before the move all replacements are made, if they are granted and the archive has the tracked
files. -/
theorem patch_eq_move {la : Location} (hnamed : Named w.disk path la)
    (hopen : openZip path w = .ok entries w) (hscan : scanEntries path entries = .ok s)
    (hread : ReadFrom c w.disk sources) (hmem : ∀ p ∈ sources, p.1 ∈ Zip.names entries)
    (hgranted : EachGranted w path (replacements c s sources) entries) :
    patch c native path w = concluded c path s sources
      { w with disk := written w.disk la (filledEntries c s sources entries) } := by
  have hreplaced :=
    (Holds.found hopen).replacing_ok hnamed (mem_replacements (c := c) hscan hmem) hgranted
  rw [afterReplacing_replacements] at hreplaced
  rw [patch_eq hopen hscan hread]
  exact Act.bind_of_ok hreplaced

theorem readFrom_of_patch_ok {u : Unit} (hok : patch c native path w = .ok u w') :
    ∃ sources, ReadFrom c w.disk sources := by
  unfold patch at hok
  obtain ⟨s, w₁, hscan, hok⟩ := Act.bind_ok.1 hok
  obtain ⟨rfl, -⟩ := scan_ok.1 hscan
  obtain ⟨sources, w₂, hsources, -⟩ := Act.bind_ok.1 hok
  exact ⟨sources, (readSources_ok.1 hsources).2⟩

/-- A patch that succeeds was granted all replacements, and has made them, the move and the
validation. -/
theorem moved_of_patch_ok (hwf : w.disk.tree.WellFormed) (hopen : openZip path w = .ok entries w)
    (hscan : scanEntries path entries = .ok s) {u : Unit} (hok : patch c native path w = .ok u w') :
    ∃ sources la dir w₁, Named w.disk path la ∧ ReadFrom c w.disk sources ∧
      (∀ p ∈ replacements c s sources, p.1 ∈ Zip.names entries) ∧
      EachGranted w path (replacements c s sources) entries ∧
      renameDistInfo c native path s
        { w with disk := written w.disk la (filledEntries c s sources entries) } = .ok dir w₁ ∧
      verify path (sources.map (·.1) ++ [inDir dir "METADATA"]) w₁ = .ok u w' := by
  obtain ⟨la, hnamed⟩ := named_of_open hwf hopen
  obtain ⟨sources, hread⟩ := readFrom_of_patch_ok hok
  rw [patch_eq hopen hscan hread] at hok
  obtain ⟨_, w₁, hreplaced, hconcluded⟩ := Act.bind_ok.1 hok
  rcases (Holds.found hopen).replacing_cases hnamed (replacements c s sources) with
    ⟨hall, hmem, hgranted⟩ | ⟨e, n, w₂, herror, -⟩
  · rw [afterReplacing_replacements, hreplaced] at hall
    obtain ⟨-, rfl⟩ := EStateM.Result.ok.inj hall
    obtain ⟨dir, w₂, hmove, hverify⟩ := Act.bind_ok.1 hconcluded
    exact ⟨sources, la, dir, w₂, hnamed, hread, hmem, hgranted, hmove, hverify⟩
  · rw [hreplaced] at herror
    exact absurd herror (by simp)

theorem moved_of_written {la : Location} (hwf : w.disk.tree.WellFormed)
    (hopen : openZip path w = .ok entries w) (hscan : scanEntries path entries = .ok s)
    (hfork : '/' ∉ c.forkDistName.toList) (hplain : ∀ n ∈ s.entries, PlainName n)
    (hconflict : NoConflict s.entries) (hnamed : Named w.disk path la) {dir : String}
    {w₁ : Workspace} (hmove : renameDistInfo c native path s
      { w with disk := written w.disk la (filledEntries c s sources entries) } = .ok dir w₁) :
    dir = c.renamed s.dir ∧
      (∃ base, Path.IsBase base ∧
        CanMove c s base (dirEntries s.dir (filledEntries c s sources entries))
        (Zip.delete s.entries (filledEntries c s sources entries))) ∧
      ∃ d₀ d, w₁ = { w with disk := d } ∧
          Stored d₀ d path la (patchedEntries c s sources entries) := by
  have hnodup := nodup_of_openZip hopen
  have hfilled : (Zip.names (filledEntries c s sources entries)).Nodup := by
    rwa [names_filledEntries]
  obtain ⟨hdir, ⟨l, -, hcan⟩, d, hw₁, hmoved⟩ := moved_of_ok (hnamed.stored_written hfilled)
    (hnamed.wellFormed_written hwf _)
    (dirEntries_filled c sources hscan hnodup hplain hconflict) hfork hmove
  rw [patchedEntries_eq hscan hnodup hplain hconflict] at hmoved
  exact ⟨hdir, ⟨_, isBase_scratch _, hcan⟩, _, d, hw₁, hmoved⟩

/-- **A patch that succeeds** has left the patched entries, and these were validated. -/
theorem patched_of_ok (hwf : w.disk.tree.WellFormed) (hopen : openZip path w = .ok entries w)
    (hscan : scanEntries path entries = .ok s) (hfork : '/' ∉ c.forkDistName.toList)
    (hplain : ∀ n ∈ s.entries, PlainName n) (hconflict : NoConflict s.entries) {u : Unit}
    (hok : patch c native path w = .ok u w') :
    ∃ sources d₀ d la, ReadFrom c w.disk sources ∧ (∀ p ∈ sources, p.1 ∈ Zip.names entries) ∧
      Stored d₀ d path la (patchedEntries c s sources entries) ∧
      verify path (sources.map (·.1) ++ [inDir (c.renamed s.dir) "METADATA"])
          { w with disk := d } = .ok u w' := by
  obtain ⟨sources, la, dir, w₁, hnamed, hread, hmem, -, hmove, hverify⟩ :=
    moved_of_patch_ok hwf hopen hscan hok
  obtain ⟨rfl, -, d₀, d, rfl, hmoved⟩ :=
    moved_of_written hwf hopen hscan hfork hplain hconflict hnamed hmove
  have hsources : ∀ p ∈ sources, p.1 ∈ Zip.names entries := fun p hp =>
    hmem p (List.mem_cons_of_mem _ (List.mem_cons_of_mem _ hp))
  exact ⟨sources, d₀, d, la, hread, hsources, hmoved, hverify⟩

end Rebadge.Wheel
