import Rebadge.Proofs.Archiver.Course
import Rebadge.Proofs.Disk.Siblings
import Rebadge.Proofs.Sdist.Steps
import Rebadge.Proofs.Wheel.Contents

/-!
# The programs of a patch

With the archiver that runs programs, the patch of a wheel freshens METADATA, RECORD and each
tracked file, extracts the directory for metadata, deletes its entries and adds it under its new
name; the patch of a source tarball unpacks it and packs it again (`patch_performs`). A file to be
freshened is alone in the directory that the program runs in (`performs_replace`), whatever the
programs before it have done. Each invocation names the archive by the absolute form that its path
has at that moment (`Called`). It is the same one in all of them if the path is absolute or no
program renames the working directory; a program that does has the next ones look elsewhere
(`roaming_renames`).
-/

namespace Rebadge

/-! ## Absolute paths -/

namespace Path

theorem isAbsolute_append_left {p : String} (h : isAbsolute p = true) (q : String) :
    isAbsolute (p ++ q) = true := by
  unfold isAbsolute at h ⊢
  rw [String.toList_append]
  cases hp : p.toList with
  | nil => simp [hp] at h
  | cons c s => simpa [hp] using h

theorem isAbsolute_join {base : String} (h : isAbsolute base = true) (part : String) :
    isAbsolute (join base part) = true := by
  have hne : base ≠ "" := by
    rintro rfl
    exact absurd h (by decide)
  unfold join
  by_cases hpart : isAbsolute part = true
  · rwa [if_pos (Or.inl hpart)]
  · rw [if_neg (by simp [hpart, hne])]
    split
    · exact isAbsolute_append_left h part
    · rw [String.append_assoc]
      exact isAbsolute_append_left h _

theorem isAbsolute_start {cwd : String} (h : isAbsolute cwd = true) (p : String) :
    isAbsolute (start cwd p) = true := by
  unfold start
  split
  · exact h
  · split <;> decide

theorem isAbsolute_absolute? {cwd p full : String} (hcwd : isAbsolute cwd = true)
    (h : absolute? cwd p = some full) : isAbsolute full = true := by
  have hfold : ∀ (parts : List Component) (base : String), isAbsolute base = true →
      isAbsolute (parts.foldl (fun acc c => join acc c.text) base) = true := by
    intro parts
    induction parts with
    | nil => exact fun base hbase => hbase
    | cons c parts ih => exact fun base hbase => ih _ (isAbsolute_join hbase c.text)
  unfold absolute? at h
  split at h
  · exact absurd h (by simp)
  obtain rfl := Option.some.inj h
  have hfull := hfold ((components p).filter fun c => c != .root && c != .current)
    _ (isAbsolute_start hcwd p)
  split
  · exact isAbsolute_append_left hfull "/"
  · exact hfull

end Path

namespace Disk

variable {d d' : Disk} {path full : String}

theorem absolute_ok : d.absolute path = .ok full ↔
    Path.absolute? d.cwdText path = some full ∧ (Path.isAbsolute path || d.hasCwd) = true := by
  unfold absolute
  cases Path.absolute? d.cwdText path with
  | none => simp
  | some p => by_cases hthere : (Path.isAbsolute path || d.hasCwd) = true <;> simp [hthere]

theorem isAbsolute_absolute (h : d.absolute path = .ok full) : Path.isAbsolute full = true :=
  Path.isAbsolute_absolute? (Path.isAbsolute_append_left (by decide) _) (absolute_ok.1 h).1

theorem absolute?_congr (h : Path.isAbsolute path = true ∨ d'.cwd = d.cwd) :
    Path.absolute? d'.cwdText path = Path.absolute? d.cwdText path := by
  rcases h with habsolute | hcwd
  · unfold Path.absolute? Path.start
    simp only [habsolute, Bool.not_true, Bool.false_eq_true, if_false]
  · unfold cwdText
    rw [hcwd]

end Disk

namespace Archiver

open Act (Performs Quiet HasOwn Runs)
open Disk (Opening)
open Rebadge.Tree (IsPlace)
open Rebadge.Path (IsPlain)

variable {toolbox : Toolbox} {programs : Programs} {w w' : Workspace}
  {path full entry scratch : String} {content : Content} {c : Config}
  {sources : List (String × Content)}

/-! ## Names of the archive -/

/-- The absolute form of a path at the time of a start. -/
structure Called (path : String) (st : Start) (full : String) : Prop where
  absolute : st.disk.absolute path = .ok full
  isAbsolute : Path.isAbsolute full = true

/-- A step that names the archive by its absolute path. -/
def OnArchive (path : String) (step : String → Step) : Step := fun st =>
  ∃ full, Called path st full ∧ step full st

theorem performs_onArchive {step : String → Step} {act : String → Act Unit}
    (h : ∀ full, w.disk.absolute path = .ok full → ∀ onFull : Step,
      (∀ st, st.disk = w.disk → step full st → onFull st) →
      Performs toolbox [onFull] (act full) w) :
    Performs toolbox [OnArchive path step] (Act.look (·.absolute path) >>= act) w :=
  Act.performs_absolute fun full hfull => h full hfull _ fun _ hst hstep =>
    ⟨full, ⟨hst ▸ hfull, Disk.isAbsolute_absolute hfull⟩, hstep⟩

/-- All steps of a plan name the archive. -/
def AllOnArchive (path : String) (plan : List Step) : Prop :=
  ∀ step ∈ plan, ∀ st, step st → ∃ full, Called path st full

theorem onArchive_called {step : String → Step} {st : Start} (h : OnArchive path step st) :
    ∃ full, Called path st full := by
  obtain ⟨full, hcalled, -⟩ := h
  exact ⟨full, hcalled⟩

/-- The programs that the act starts. -/
def startedBy {α : Type} (act : Act α) (w : Workspace) : List Start :=
  (Act.leaves act w).started.drop w.started.length

/-- **The archive has one name** if its path is absolute or the working directory stays. -/
theorem Performs.called {α : Type} {plan : List Step} {act : Act α}
    (h : Performs toolbox plan act w) (hplan : AllOnArchive path plan)
    (hsame : Path.isAbsolute path = true ∨ toolbox.Stays) {st : Start}
    (hst : st ∈ startedBy act w) :
    Called path st ((Path.absolute? w.disk.cwdText path).getD "") := by
  obtain ⟨⟨starts, hstarted, hcourse, hcwd⟩, -⟩ := h
  rw [startedBy, hstarted, List.drop_left] at hst
  obtain ⟨step, hmem, hmeets⟩ := hcourse.meets hst
  obtain ⟨full, hcalled⟩ := hplan step hmem st hmeets
  obtain ⟨hfull, -⟩ := Disk.absolute_ok.1 hcalled.absolute
  rw [Disk.absolute?_congr (hsame.imp_right fun hstays => hcwd hstays st hst)] at hfull
  rw [hfull, Option.getD_some]
  exact hcalled

/-! ## Freshening an entry -/

/-- The program freshens an entry, whose file is the only one in the directory that it runs in. -/
structure Freshens (programs : Programs) (full : String) (p : String × Content) (st : Start) :
    Prop where
  program : st.invocation.program = programs.zip
  args : st.invocation.args = ["-q", "-f", full, p.1]
  files : ∀ r data, (∃ m, st.disk.tree.get? (st.invocation.dir ++ r) = some (.file data m)) ↔
    r = Text.split p.1 '/' ∧ data = p.2

/-- A workspace to patch in: a file tree, and a working directory whose names are names. -/
structure Workable (w : Workspace) : Prop where
  wellFormed : w.disk.tree.WellFormed
  place : IsPlace w.disk.cwd

/-- The staged file is the only one, and the directory is the scratch directory. -/
theorem freshens_of_staged {l : Location} {o d : Disk} {bases : List (List String)} {st : Start}
    (h : Disk.Laid bases l [] o d [(Text.split entry '/', some content)]) (hdisk : st.disk = d)
    (hdir : st.invocation.dir = l)
    (hruns : Runs programs.zip ["-q", "-f", full, entry] scratch st) :
    Freshens programs full (entry, content) st := by
  refine ⟨hruns.program, hruns.args, fun r data => ?_⟩
  rw [hdisk, hdir]
  by_cases hr : r = []
  · subst hr
    rw [List.append_nil]
    obtain ⟨m, hm⟩ := h.kept.clear.dir
    refine iff_of_false (by simp [hm]) ?_
    rintro ⟨hnil, -⟩
    exact Text.split_ne_nil entry '/' hnil.symm
  · rw [h.file_iff hr, Layout.fileAt, Layout.fileAt, Option.none_or]
    constructor
    · intro hfile
      split at hfile
      · next heq => exact ⟨heq.symm, (Option.some.inj hfile).symm⟩
      · exact absurd hfile (by simp)
    · rintro ⟨rfl, rfl⟩
      rw [if_pos rfl]

theorem wellFormed_cleared {d : Disk} (h : d.tree.WellFormed) (path : String) :
    (Act.cleared d path).tree.WellFormed := by
  unfold Act.cleared Disk.remove
  cases hfind : d.find path false with
  | error e => exact h
  | ok p => exact h.drop p.1

/-- **A replacement** is one program, which freshens the entry. -/
theorem performs_replace (hsound : toolbox.Sound) (hw : Workable w)
    (hentry : ∀ p ∈ Text.split entry '/', IsPlain p) :
    Performs toolbox [OnArchive path fun full => Freshens programs full (entry, content)]
        (replaceByProgram toolbox programs path entry content) w ∧
      ∀ w', replaceByProgram toolbox programs path entry content w = .ok () w' → Workable w' := by
  have hopening : ∀ d, w.disk.makeDir (Act.scratchPath w) = .ok d →
      ∃ l, Opening w.disk (Act.scratchPath w) l ∧ d = w.disk.opened l := by
    intro d hmake
    obtain ⟨l, hl, hfree, hd⟩ := Disk.makeDir_ok hmake
    exact ⟨l, ⟨hw.wellFormed, Path.isBase_join w.tempDir (Disk.isPlain_freshName _), hl, hfree,
      Disk.isPlace_of_locate hw.place hl⟩, hd⟩
  unfold replaceByProgram
  constructor
  · refine Act.performs_withScratch fun d hmake => ?_
    obtain ⟨l, hopen, rfl⟩ := hopening d hmake
    refine .after (Act.quiet_makeParents _) fun _ w₁ hparents => ?_
    refine .after (Act.quiet_change fun _ _ h => Disk.cwd_write h) fun _ w₂ hwrite => ?_
    obtain ⟨hlaid, -⟩ := hopen.stage_only hentry (Act.bind_ok.2 ⟨(), w₁, hparents, hwrite⟩)
    refine performs_onArchive fun full _ onFull hmeets => Act.performs_run fun st hst hruns => ?_
    obtain ⟨n, hfind, -⟩ := hruns.dir
    have hdir := hlaid.kept.find_opened (hst ▸ hfind)
    exact hmeets st hst (freshens_of_staged hlaid hst hdir hruns)
  · intro w' hok
    obtain ⟨d, w₃, hmake, hbody, rfl⟩ := Act.withScratch_ok.1 hok
    obtain ⟨l, hopen, rfl⟩ := hopening d hmake
    obtain ⟨_, w₁, hparents, hbody⟩ := Act.bind_ok.1 hbody
    obtain ⟨_, w₂, hwrite, hbody⟩ := Act.bind_ok.1 hbody
    obtain ⟨hlaid, -⟩ := hopen.stage_only hentry (Act.bind_ok.2 ⟨(), w₁, hparents, hwrite⟩)
    obtain ⟨full, _, hlook, hrun⟩ := Act.bind_ok.1 hbody
    obtain ⟨-, rfl⟩ := Act.look_ok.1 hlook
    obtain ⟨i, htool⟩ := Act.runProgram_ok hrun
    have hcwd : w₂.disk.cwd = w.disk.cwd := hlaid.kept.cwd
    have hwf := hsound.wellFormed _ _ _ _ htool (hopen.wellFormed_kept hlaid.kept)
    refine ⟨wellFormed_cleared hwf (Act.scratchPath w), ?_⟩
    rw [Act.cwd_cleared]
    exact hsound.place _ _ _ _ htool (hcwd ▸ hw.place)

/-! ## Acts that start no programs -/

theorem quiet_openZip (path : String) : Quiet (Native.openZip path) := by
  unfold Native.openZip
  refine (Act.quiet_look _).bind fun p => ?_
  split
  · exact Act.quiet_ofExcept (Act.hasOwn_mapError (g := .zip) (fun _ => trivial) _)
  · exact Act.quiet_throw (by trivial)

theorem quiet_scan (path : String) : Quiet (Wheel.scan path) := by
  refine (quiet_openZip path).bind fun entries => Act.quiet_ofExcept ?_
  have htext : ∀ name, HasOwn (Wheel.entryText path entries name) := by
    intro name
    unfold Wheel.entryText
    split
    · exact Act.hasOwn_error (by trivial)
    · exact Act.hasOwn_io _
  have hmalformed : ∀ {α : Type} (x : Except Malformation α),
      HasOwn (x.mapError (.malformed path)) := fun x =>
    Act.hasOwn_mapError (g := .malformed path) (fun _ => trivial) x
  exact (hmalformed _).bind fun dir => (hmalformed _).bind fun _ => (hmalformed _).bind fun _ =>
      (htext _).bind fun _ =>
    (htext _).bind fun _ => Act.hasOwn_ok _

theorem quiet_readSources (c : Config) : Quiet c.readSources := by
  refine Act.quiet_mapM fun t _ => Act.quiet_disk.bind fun d => ?_
  exact (Act.quiet_ofExcept
    (Act.hasOwn_mapError (g := fun e => .config (.trackedFile (c.trackedSource t) e))
      (fun _ => trivial) _)).bind fun content => Act.quiet_pure (t, content)

theorem quiet_verify (path : String) (paths : List String) : Quiet (Wheel.verify path paths) := by
  refine (quiet_scan path).bind fun s => (quiet_openZip path).bind fun entries => ?_
  have hdefect : ∀ p, HasOwn (Wheel.defect? entries (.parse s.record) p) := by
    intro p
    unfold Wheel.defect?
    split
    · exact Act.hasOwn_ok _
    · split
      · exact Act.hasOwn_ok _
      · refine (Act.hasOwn_io _).bind fun image => ?_
        refine (Act.hasOwn_mapError (g := .record) (fun _ => trivial) _).bind fun isMatch => ?_
        split
        · split <;> exact Act.hasOwn_ok _
        · exact Act.hasOwn_ok _
  refine (Act.quiet_ofExcept ?_).bind fun ds => ?_
  · exact (Act.hasOwn_mapM fun p _ => hdefect p).map _
  · split
    · exact Act.quiet_pure ()
    · next d _ => cases d <;> exact Act.quiet_throw (by trivial)

theorem quiet_rename (source target : String) : Quiet (Act.change (·.rename source target)) :=
  Act.quiet_change fun _ _ h => by
    obtain ⟨s, t, n, -, -, -, hmoves⟩ := Disk.rename_ok h
    exact hmoves.cwd

theorem quiet_changeRootFile (sdist root name : String) (change : String → String) :
    Quiet (Sdist.changeRootFile sdist root name change) := by
  unfold Sdist.changeRootFile Sdist.readRootFile
  refine Quiet.bind (Act.quiet_disk.bind fun d => ?_) fun text => Act.quiet_change fun _ _ h =>
    Disk.cwd_write h
  split
  · exact Act.quiet_pure _
  · exact Act.quiet_throw (by trivial)
  · exact Act.quiet_throw (by trivial)

theorem quiet_checkRoot (sdist rootName root : String) :
    Quiet (Sdist.checkRoot sdist rootName root) := by
  unfold Sdist.checkRoot
  refine Act.quiet_disk.bind fun d => ?_
  split
  · exact Act.quiet_throw (by trivial)
  · exact Act.quiet_pure ()

theorem quiet_inject (c : Config) (root tracked : String) (content : Content) :
    Quiet (Sdist.inject c root tracked content) :=
  Act.quiet_stage _ content

theorem quiet_editRoot (c : Config) (sdist rootName root : String) :
    Quiet (Sdist.editRoot c sdist rootName root) :=
  (quiet_checkRoot _ _ _).bind fun _ => (quiet_changeRootFile _ _ _ _).bind fun _ =>
    (quiet_changeRootFile _ _ _ _).bind fun _ => (quiet_readSources c).bind fun _ =>
      Act.quiet_forM fun p _ => quiet_inject c root p.1 p.2

/-! ## The plan of a wheel -/

/-- The program extracts entries to the scratch directory that it runs in. -/
def Extracts (programs : Programs) (full : String) (entries : List String) (scratch : String)
    (st : Start) : Prop :=
  ∃ target, st.disk.absolute scratch = .ok target ∧
    Runs programs.unzip (["-q", full] ++ entries ++ ["-d", target]) scratch st

/-- The program adds the directory that was found in the scratch directory and has just got its new
name. -/
def Adds (programs : Programs) (c : Config) (path full scratch : String) (st : Start) : Prop :=
  ∃ d found newName, Wheel.findDistInfo d scratch c.distName path = .ok found ∧
    newName = c.renamed ((Path.fileName? found).getD "") ∧
    d.rename found (Path.join scratch newName) = .ok st.disk ∧
    Runs programs.zip ["-q", "-r", full, newName] scratch st

/-- The steps of the move by way of a scratch directory. -/
def movePlan (programs : Programs) (c : Config) (path : String) (s : Wheel.Scan)
    (scratch : String) : List Step :=
  [OnArchive path fun full => Extracts programs full s.entries scratch,
    OnArchive path fun full =>
      Runs programs.zip (["-q", "-d", full] ++ s.entries) ((Path.parent? full).getD "."),
    OnArchive path fun full => Adds programs c path full scratch]

/-- The steps of the replacements. -/
def freshenPlan (programs : Programs) (path : String) (replaced : List (String × Content)) :
    List Step :=
  replaced.map fun p => OnArchive path fun full => Freshens programs full p

/-- **The plan of a wheel**: each replacement in its order, and then the move. Where the wheel or
the tracked files cannot be read there is none. -/
inductive WheelPlan (programs : Programs) (c : Config) (path : String) (w : Workspace) :
    List Step → Prop where
  | unread (h : ∀ s sources, Wheel.scan path w = .ok s w → c.readSources w ≠ .ok sources w) :
    WheelPlan programs c path w []
  | passes {s : Wheel.Scan} {sources : List (String × Content)} (scratch : String)
    (hscan : Wheel.scan path w = .ok s w) (hsources : c.readSources w = .ok sources w) :
    WheelPlan programs c path w (freshenPlan programs path (Wheel.replacements c s sources) ++
      movePlan programs c path s scratch)

theorem WheelPlan.allOnArchive {plan : List Step} (h : WheelPlan programs c path w plan) :
    AllOnArchive path plan := by
  intro step hmem st hstep
  cases h with
  | unread h => exact absurd hmem List.not_mem_nil
  | passes scratch hscan hsources =>
    rcases List.mem_append.1 hmem with hmem | hmem
    · obtain ⟨p, -, rfl⟩ := List.mem_map.1 hmem
      exact onArchive_called hstep
    · simp only [movePlan, List.mem_cons, List.not_mem_nil, or_false] at hmem
      rcases hmem with rfl | rfl | rfl <;> exact onArchive_called hstep

/-- **The move** has its three steps in the scratch directory. -/
theorem performs_move (programs : Programs) (c : Config) (s : Wheel.Scan) :
    Performs toolbox (movePlan programs c path s (Act.scratchPath w))
      (Wheel.renameDistInfo c (external toolbox programs) path s) w := by
  refine Act.performs_withScratch fun d _ => ?_
  generalize ({ w with disk := d } : Workspace) = w₀
  generalize Act.scratchPath w = scratch
  have hextract : Performs toolbox
      [OnArchive path fun full => Extracts programs full s.entries scratch]
      ((external toolbox programs).extractEntries path s.entries scratch) w₀ := by
    refine performs_onArchive fun full _ onFull hmeets => ?_
    refine .after (Act.quiet_look _) fun target w₁ hlook => ?_
    obtain ⟨htarget, rfl⟩ := Act.look_ok.1 hlook
    exact Act.performs_run fun st hst hruns => hmeets st hst ⟨target, hst ▸ htarget, hruns⟩
  refine hextract.cons fun _ w₁ _ => ?_
  have hdelete : Performs toolbox
      [OnArchive path fun full =>
        Runs programs.zip (["-q", "-d", full] ++ s.entries) ((Path.parent? full).getD ".")]
      ((external toolbox programs).deleteEntries path s.entries) w₁ :=
    performs_onArchive fun full _ onFull hmeets =>
      Act.performs_run fun st hst hruns => hmeets st hst hruns
  refine hdelete.cons fun _ w₂ _ => ?_
  refine .after Act.quiet_disk fun d₂ w₃ hdisk => ?_
  obtain ⟨rfl, rfl⟩ := Act.disk_ok.1 hdisk
  refine .after (Act.quiet_ofExcept ?_) fun found w₃ hfinds => ?_
  · unfold Wheel.findDistInfo
    split
    · exact Act.hasOwn_ok _
    · exact Act.hasOwn_error (by trivial)
  obtain ⟨hfound, rfl⟩ := Act.ofExcept_ok.1 hfinds
  refine .after (quiet_rename _ _) fun _ w₃ hmoves => ?_
  obtain ⟨d₃, hrename, rfl⟩ := Act.change_ok.1 hmoves
  have hadd : Performs toolbox [OnArchive path fun full => Adds programs c path full scratch]
      ((external toolbox programs).addTree path scratch
        (c.renamed ((Path.fileName? found).getD ""))) { w₂ with disk := d₃ } :=
    performs_onArchive fun full _ onFull hmeets => Act.performs_run fun st hst hruns =>
      hmeets st hst ⟨w₂.disk, found, _, hfound, rfl, hst ▸ hrename, hruns⟩
  exact hadd.cons fun _ w₄ _ => (Act.quiet_pure _).performs w₄

theorem plain_of_replacements {s : Wheel.Scan} (hscan : Wheel.scan path w = .ok s w)
    (hsources : c.readSources w = .ok sources w)
    (htracked : ∀ t ∈ c.trackedFiles, ∀ p ∈ Text.split t '/', IsPlain p) :
    ∀ r ∈ Wheel.replacements c s sources, ∀ p ∈ Text.split r.1 '/', IsPlain p := by
  obtain ⟨-, entries, -, hentries⟩ := Wheel.scan_ok.1 hscan
  have hdir := (Wheel.isDirName_of_scan hentries).isPlain
  have hinDir : ∀ {file : String}, IsPlain file → ∀ p ∈ Text.split (Wheel.inDir s.dir file) '/',
      IsPlain p := by
    intro file hfile p hp
    have hboth : ∀ q ∈ [s.dir, file], IsPlain q := by simp [hdir, hfile]
    rw [← @String.intercalate_singleton "/" file,
      ← Wheel.intercalate_inDir s.dir (List.cons_ne_nil file []),
      Text.split_intercalate (List.cons_ne_nil _ _) fun q hq => (hboth q hq).slash] at hp
    exact hboth p hp
  intro r hr
  unfold Wheel.replacements at hr
  rcases List.mem_cons.1 hr with rfl | hr
  · exact hinDir (by decide)
  rcases List.mem_cons.1 hr with rfl | hr
  · exact hinDir (by decide)
  · refine htracked r.1 ?_
    rw [← (Wheel.readSources_ok.1 hsources).2.names]
    exact List.mem_map_of_mem hr

/-- **The passes** over a wheel that was read. -/
theorem performs_passes (hsound : toolbox.Sound) (hw : Workable w) {s : Wheel.Scan}
    (hplain : ∀ r ∈ Wheel.replacements c s sources, ∀ p ∈ Text.split r.1 '/', IsPlain p) :
    ∃ scratch, Performs toolbox
      (freshenPlan programs path (Wheel.replacements c s sources) ++
        movePlan programs c path s scratch)
      (do
        replaceByProgram toolbox programs path s.metadataPath (.ofText (Wheel.newMetadata c s))
        replaceByProgram toolbox programs path s.recordPath (.ofText (Wheel.newRecord c s sources))
        sources.forM fun p => replaceByProgram toolbox programs path p.1 p.2
        let dir ← Wheel.renameDistInfo c (external toolbox programs) path s
        Wheel.verify path (sources.map (·.1) ++ [Wheel.inDir dir "METADATA"])) w := by
  have hreplaced : Performs toolbox (freshenPlan programs path (Wheel.replacements c s sources))
      ((Wheel.replacements c s sources).forM fun p =>
        replaceByProgram toolbox programs path p.1 p.2) w :=
    Act.performs_forM (P := Workable)
      (fun r hr w' hw' => performs_replace hsound hw' (hplain r hr)) hw
  have hassoc : ∀ after : Act Unit, (do
        replaceByProgram toolbox programs path s.metadataPath (.ofText (Wheel.newMetadata c s))
        replaceByProgram toolbox programs path s.recordPath (.ofText (Wheel.newRecord c s sources))
        sources.forM fun p => replaceByProgram toolbox programs path p.1 p.2
        after) =
      (do
        (Wheel.replacements c s sources).forM fun p =>
          replaceByProgram toolbox programs path p.1 p.2
        after) := by
    intro after
    unfold Wheel.replacements
    simp only [List.forM, bind_assoc]
  rw [hassoc]
  refine hreplaced.bind_exists fun _ w' _ => ⟨Act.scratchPath w', ?_⟩
  rw [← List.append_nil (movePlan _ _ _ _ _)]
  exact (performs_move programs c s).bind fun dir w'' _ => (quiet_verify path _).performs w''

/-- **The patch of a wheel** meets its plan. -/
theorem performs_wheel (hsound : toolbox.Sound) (hw : Workable w)
    (htracked : ∀ t ∈ c.trackedFiles, ∀ p ∈ Text.split t '/', IsPlain p) :
    ∃ plan, WheelPlan programs c path w plan ∧
      Performs toolbox plan (Wheel.patch c (external toolbox programs) path) w := by
  unfold Wheel.patch
  by_cases hread : ∃ s sources, Wheel.scan path w = .ok s w ∧ c.readSources w = .ok sources w
  · obtain ⟨s, sources, hscan, hsources⟩ := hread
    obtain ⟨scratch, hpasses⟩ :=
      performs_passes hsound hw (plain_of_replacements hscan hsources htracked)
    refine ⟨_, .passes scratch hscan hsources, ?_⟩
    refine .after (quiet_scan path) fun s' w₁ hscan' => ?_
    refine .after (quiet_readSources c) fun sources' w₂ hsources' => ?_
    cases hscan.symm.trans hscan'
    cases hsources.symm.trans hsources'
    exact hpasses
  · refine ⟨[], .unread fun s sources hscan hsources => hread ⟨s, sources, hscan, hsources⟩, ?_⟩
    refine .after (quiet_scan path) fun s w₁ hscan => ?_
    refine .after (quiet_readSources c) fun sources w₂ hsources => ?_
    obtain ⟨rfl, -⟩ := Wheel.scan_ok.1 hscan
    obtain ⟨rfl, -⟩ := Wheel.readSources_ok.1 hsources
    exact absurd ⟨s, sources, hscan, hsources⟩ hread

/-! ## The plan of a source tarball -/

/-- **The plan of a source tarball**: it is unpacked, and the directory at its top is packed under
its new name. Without the suffix there is none. -/
inductive SdistPlan (programs : Programs) (c : Config) (path : String) : List Step → Prop where
  | unnamed (h : Sdist.rootName? path = none) : SdistPlan programs c path []
  | repacked {rootName : String} (scratch : String) (hroot : Sdist.rootName? path = some rootName) :
    SdistPlan programs c path
      [OnArchive path fun full => Runs programs.tar ["-xzf", full] scratch,
        OnArchive path fun full => Runs programs.tar ["-czf", full, c.renamed rootName] scratch]

theorem SdistPlan.allOnArchive {plan : List Step} (h : SdistPlan programs c path plan) :
    AllOnArchive path plan := by
  intro step hmem st hstep
  cases h with
  | unnamed h => exact absurd hmem List.not_mem_nil
  | repacked scratch hroot =>
    simp only [List.mem_cons, List.not_mem_nil, or_false] at hmem
    rcases hmem with rfl | rfl <;> exact onArchive_called hstep

/-- **The patch of a source tarball** meets its plan. -/
theorem performs_sdist (toolbox : Toolbox) (programs : Programs) (c : Config) (path : String)
    (w : Workspace) : ∃ plan, SdistPlan programs c path plan ∧
      Performs toolbox plan (Sdist.patch c (external toolbox programs) path) w := by
  cases hroot : Sdist.rootName? path with
  | none =>
    refine ⟨[], .unnamed hroot, ?_⟩
    rw [Sdist.patch_none c _ hroot]
    exact (Act.quiet_throw (by trivial)).performs w
  | some rootName =>
    refine ⟨_, .repacked (Act.scratchPath w) hroot, ?_⟩
    rw [Sdist.patch_steps c _ hroot]
    refine Act.performs_withScratch fun d _ => ?_
    generalize ({ w with disk := d } : Workspace) = w₀
    generalize Act.scratchPath w = scratch
    have hrun : ∀ {w : Workspace} (args : String → List String), Performs toolbox
        [OnArchive path fun full => Runs programs.tar (args full) scratch]
        (Act.look (·.absolute path) >>= fun full =>
          runProgram toolbox programs.tar (args full) scratch) w := fun args =>
      performs_onArchive fun full _ onFull hmeets => Act.performs_run hmeets
    refine (hrun fun full => ["-xzf", full]).cons fun _ w₁ _ => ?_
    refine .after (quiet_editRoot _ _ _ _) fun _ w₂ _ => ?_
    refine .after (quiet_rename _ _) fun _ w₃ _ => ?_
    exact hrun fun full => ["-czf", full, c.renamed rootName]

/-! ## Both patches -/

/-- **The programs of a patch** are a course of its plan. They all call the archive by one name if
its path is absolute or the working directory stays. -/
theorem patch_performs (hsound : toolbox.Sound) (hwf : w.disk.tree.WellFormed)
    (hcwd : IsPlace w.disk.cwd)
    (htracked : ∀ t ∈ c.trackedFiles, ∀ p ∈ Text.split t '/', IsPlain p) (programs : Programs)
    (path : String) :
    (∃ plan, WheelPlan programs c path w plan ∧
      Performs toolbox plan (Wheel.patch c (external toolbox programs) path) w) ∧
    (∃ plan, SdistPlan programs c path plan ∧
      Performs toolbox plan (Sdist.patch c (external toolbox programs) path) w) ∧
    (Path.isAbsolute path = true ∨ toolbox.Stays → ∃ full,
      (∀ st ∈ startedBy (Wheel.patch c (external toolbox programs) path) w,
        Called path st full) ∧
      ∀ st ∈ startedBy (Sdist.patch c (external toolbox programs) path) w,
        Called path st full) := by
  have hwheels : ∃ plan, WheelPlan programs c path w plan ∧
      Performs toolbox plan (Wheel.patch c (external toolbox programs) path) w :=
    performs_wheel hsound ⟨hwf, hcwd⟩ htracked
  obtain ⟨plan, hplan, hwheel⟩ := hwheels
  obtain ⟨plan', hplan', hsdist⟩ := performs_sdist toolbox programs c path w
  exact ⟨⟨plan, hplan, hwheel⟩, ⟨plan', hplan', hsdist⟩, fun hsame => ⟨_,
    fun st hst => Performs.called hwheel hplan.allOnArchive hsame hst,
    fun st hst => Performs.called hsdist hplan'.allOnArchive hsame hst⟩⟩

/-- Programs that change nothing and find no entry to freshen. -/
def finding : Toolbox := fun d i => .ok (d, if "-f" ∈ i.args then .code 12 else .code 0)

theorem finding_stays : finding.Stays := by
  rintro d i d' exit h
  cases h
  rfl

theorem finding_sound : finding.Sound where
  wellFormed := by
    rintro d i d' exit h hwf
    cases h
    exact hwf
  place := by
    rintro d i d' exit h hplace
    exact finding_stays _ _ _ _ h ▸ hplace

set_option maxRecDepth 100000 in
theorem patch_performs_small :
    Act.outcome (Wheel.patch Wheel.smallConfig (external finding {}) "w") Wheel.smallWorkspace =
      .error (.command "zip -q -f /w p-1.dist-info/METADATA" 12) ∧
    (∃ plan, WheelPlan {} Wheel.smallConfig "w" Wheel.smallWorkspace plan ∧
      Performs finding plan (Wheel.patch Wheel.smallConfig (external finding {}) "w")
        Wheel.smallWorkspace) ∧
    ∃ full, ∀ st ∈ startedBy (Wheel.patch Wheel.smallConfig (external finding {}) "w")
      Wheel.smallWorkspace, Called "w" st full := by
  have hperforms := patch_performs finding_sound Wheel.small_wellFormed (List.forall_mem_nil _)
    (c := Wheel.smallConfig) (by decide) {} "w"
  obtain ⟨full, hcalled, -⟩ := hperforms.2.2 (.inr finding_stays)
  exact ⟨by rfl, hperforms.1, full, hcalled⟩

/-! ## A program that renames the working directory -/

/-- The program renames the directory `d` to `x` while others work in it, and fails elsewhere. -/
def roaming : Toolbox := fun d _ =>
  if d.cwd = ["d"] then .ok ({ tree := d.tree.move ["d"] ["x"], cwd := ["x"] }, .code 0)
  else .ok (d, .code 1)

theorem wellFormed_move_top {t : Tree} (h : t.WellFormed) (a b : String) :
    (t.move [a] [b]).WellFormed := by
  have hother : ∀ k, ¬ [b] <+: k →
      (t.move [a] [b]).get? k = if [a] <+: k then none else t.get? k := fun k =>
    Tree.get?_move_other (List.cons_ne_nil a []) (List.cons_ne_nil b [])
  intro k r hr hsome
  cases k with
  | nil => exact ⟨_, rfl⟩
  | cons c k =>
    by_cases htarget : b = c
    · subst htarget
      have hmoved := Tree.get?_move (t := t) (List.cons_ne_nil a []) (List.cons_ne_nil b [])
      rw [List.cons_append] at hsome
      exact hmoved k ▸ h (a :: k) r hr (hmoved (k ++ r) ▸ hsome)
    · have hnot : ∀ q, ¬ [b] <+: c :: q := fun q hpre => htarget (List.cons_prefix_cons.1 hpre).1
      rw [List.cons_append, hother _ (hnot _)] at hsome
      have hsource : ¬ [a] <+: c :: (k ++ r) := fun hpre => hsome (if_pos hpre)
      rw [if_neg hsource] at hsome
      rw [hother _ (hnot k),
        if_neg fun hpre => hsource (hpre.trans (List.prefix_append (c :: k) r))]
      exact h (c :: k) r hr hsome

theorem isPlace_top {name : String} (h : Tree.IsName name) (hslash : '/' ∉ name.toList) :
    IsPlace [name] := List.forall_mem_singleton.2 ⟨h, hslash⟩

theorem roaming_sound : roaming.Sound where
  wellFormed := by
    intro d i d' exit h hwf
    unfold roaming at h
    split at h
    · cases h
      exact wellFormed_move_top hwf "d" "x"
    · cases h
      exact hwf
  place := by
    intro d i d' exit h hplace
    unfold roaming at h
    split at h
    · cases h
      exact isPlace_top ⟨by decide, by decide, by decide, by decide⟩ (by decide)
    · cases h
      exact hplace

/-- A wheel and a file to put in it, in the working directory. -/
def roamingWorkspace : Workspace where
  disk := {
    tree := ⟨[(["tmp"], .dir 0o755), (["d"], .dir 0o755),
      (["d", "w"], .file (.zip Wheel.smallEntries) 0o644), (["d", "src"], .dir 0o755),
      (["d", "src", "a"], .file (.bytes [1]) 0o644)]⟩
    cwd := ["d"] }

set_option maxRecDepth 100000 in
/-- The second program looks for the archive at another place than the first one. -/
theorem roaming_renames :
    roaming.Sound ∧ roamingWorkspace.disk.tree.WellFormed ∧ IsPlace roamingWorkspace.disk.cwd ∧
    (∀ t ∈ Wheel.smallConfig.trackedFiles, ∀ p ∈ Text.split t '/', IsPlain p) ∧
    (startedBy (Wheel.patch Wheel.smallConfig (external roaming {}) "w") roamingWorkspace).map
        (·.invocation.line) =
      ["zip -q -f /d/w p-1.dist-info/METADATA", "zip -q -f /x/w p-1.dist-info/RECORD"] ∧
    ¬ ∃ full, ∀ st ∈ startedBy (Wheel.patch Wheel.smallConfig (external roaming {}) "w")
      roamingWorkspace, ∃ entry, st.invocation.args = ["-q", "-f", full, entry] := by
  refine ⟨roaming_sound, Tree.wellFormed_of_parents (by decide),
    isPlace_top ⟨by decide, by decide, by decide, by decide⟩ (by decide), by decide, by rfl,
    ?_⟩
  rintro ⟨full, h⟩
  have hall : ∀ o ∈ (startedBy (Wheel.patch Wheel.smallConfig (external roaming {}) "w")
      roamingWorkspace).map (·.invocation.args[2]?), o = some full := by
    refine List.forall_mem_map.2 fun st hst => ?_
    obtain ⟨entry, hargs⟩ := h st hst
    rw [hargs]
    rfl
  have hthird : (startedBy (Wheel.patch Wheel.smallConfig (external roaming {}) "w")
      roamingWorkspace).map (·.invocation.args[2]?) = [some "/d/w", some "/x/w"] := by rfl
  rw [hthird] at hall
  have hfirst := hall (some "/d/w") (by simp)
  have hsecond := hall (some "/x/w") (by simp)
  exact absurd (hfirst.trans hsecond.symm) (by decide)

end Archiver
end Rebadge
