import Rebadge.Proofs.Archiver.TarballLayout
import Rebadge.Proofs.Disk.Staging
import Rebadge.Proofs.Sdist.Bench
import Rebadge.Proofs.Wheel.Passes

/-!
# What is in a patched source tarball

Each step of a patch adds to the layout of the scratch directory: what the tarball holds
(`Bench.extractTarball_ok`), the two files that are rewritten (`changeRootFile_ok`) and the tracked
files (`injectAll_ok`). The directory at the top takes all of this along to its new name, and is
packed with it (`patch_repacked`).
-/

namespace Rebadge

/-! ## Configurations with plain paths -/

namespace Config

variable {c : Config}

/-- The names that lead to the directory of a source tree that holds the tracked files. The empty
path stands for the directory at the top. -/
def sourceNames (c : Config) : List String :=
  if c.sdistSourceDir = "" then [] else Text.split c.sdistSourceDir '/'

/-- The names that lead to a tracked file in a source tree. -/
def targetNames (c : Config) (tracked : String) : List String :=
  c.sourceNames ++ Text.split tracked '/'

/-- The paths of a configuration lead down along names, and the name of the fork is no path. -/
structure HasPlainPaths (c : Config) : Prop where
  fork : '/' ∉ c.forkDistName.toList
  sourceDir : ∀ p ∈ c.sourceNames, Path.IsPlain p
  tracked : ∀ t ∈ c.trackedFiles, ∀ p ∈ Text.split t '/', Path.IsPlain p

instance (c : Config) : Decidable c.HasPlainPaths :=
  decidable_of_iff ('/' ∉ c.forkDistName.toList ∧ (∀ p ∈ c.sourceNames, Path.IsPlain p) ∧
    ∀ t ∈ c.trackedFiles, ∀ p ∈ Text.split t '/', Path.IsPlain p)
    ⟨fun h => ⟨h.1, h.2.1, h.2.2⟩, fun h => ⟨h.fork, h.sourceDir, h.tracked⟩⟩

theorem HasPlainPaths.target (h : c.HasPlainPaths) {t : String} (ht : t ∈ c.trackedFiles) :
    ∀ p ∈ c.targetNames t, Path.IsPlain p := by
  intro p hp
  rcases List.mem_append.1 hp with hp | hp
  · exact h.sourceDir p hp
  · exact h.tracked t ht p hp

end Config

namespace Sdist

open Disk (Opening Kept Fits Names Laid Scratch openedBases)
open Archiver (native)
open Archiver.Native (topNames layout placed entryPath Unpackable)
open Rebadge.Path (IsPlain IsBase)

variable {c : Config} {w w' : Workspace} {path rootName : String} {la l : Location}
  {o d e : Disk} {base : List String} {bases : List (List String)} {own : List Location}
  {L : Layout} {members : List (Tar.Member Content)} {sources : List (String × Content)}
  {content : Content} {text : String}

/-! ## Where tracked files are put -/

theorem injectionTarget_eq (hb : IsBase base) (hc : c.HasPlainPaths) {t : String}
    (ht : t ∈ c.trackedFiles) :
    injectionTarget c ("/".intercalate base) t = "/".intercalate (base ++ c.targetNames t) := by
  have hrelative := Path.not_isAbsolute_of_plain (hc.tracked t ht)
  unfold injectionTarget Config.targetNames Config.sourceNames
  split
  · next hempty =>
    rw [hempty, Path.join_plain hb (by simp), Path.join_slash hb hrelative, List.nil_append]
  · next hne =>
    have hplain : ∀ p ∈ Text.split c.sdistSourceDir '/', IsPlain p := by
      have hsource := hc.sourceDir
      rwa [Config.sourceNames, if_neg hne] at hsource
    rw [Path.join_eq hb (Path.not_isAbsolute_of_plain hplain),
      Path.join_eq (hb.append hplain) hrelative, List.append_assoc]

/-- The tracked files with the names that lead to them from the scratch directory. -/
def injections (c : Config) (rootName : String) (sources : List (String × Content)) : Layout :=
  sources.map fun p => (rootName :: c.targetNames p.1, some p.2)

/-! ## One file -/

theorem apart_rewrite (h : L.Apart) {r : Location} (hfile : L.fileAt r = some content)
    (content' : Content) : (L ++ [(r, some content')]).Apart := by
  refine h.mono fun p hp => ?_
  rcases List.mem_append.1 hp with hp | hp
  · exact ⟨p, hp, rfl, rfl⟩
  · obtain rfl := List.mem_singleton.1 hp
    exact ⟨_, Layout.mem_of_fileAt hfile, rfl, rfl⟩

/-- **A file at the top** is read and written. -/
theorem changeRootFile_ok (h : Laid bases l own o w.disk L) (hbase : base ∈ bases)
    (sdist : String) {name : String} (hn : Names base [rootName, name]) (hapart : L.Apart)
    (hfile : L.fileAt [rootName, name] = some content) (htext : content.text? = .ok text)
    (change : String → String) :
    ∃ d, changeRootFile sdist ("/".intercalate (base ++ [rootName])) name change w = .ok ()
      { w with disk := d } ∧
      Laid bases l own o d (L ++ [([rootName, name], some (.ofText (change text)))]) := by
  have hs := h.kept.scratch hbase
  have hname : IsPlain name := hn.plain name (by simp)
  have hroot : IsPlain rootName := hn.plain rootName (by simp)
  have hpath : Path.join ("/".intercalate (base ++ [rootName])) name =
      "/".intercalate (base ++ [rootName, name]) := by
    rw [Path.join_plain (hs.isBase.append (by simpa using hroot)) hname.slash, List.append_assoc]
    rfl
  obtain ⟨m, hnode⟩ := (h.file_iff (r := [rootName, name]) (by simp)).2 hfile
  have hfind := hs.find_append hn (by simp) hnode
  have hread : w.disk.readText ("/".intercalate (base ++ [rootName, name])) = .ok text := by
    unfold Disk.readText
    rw [Disk.read_ok.2 ⟨_, m, hfind true⟩]
    exact htext
  have hwrite : w.disk.write ("/".intercalate (base ++ [rootName, name])) (.ofText (change text)) =
      .ok (w.disk.put (l ++ [rootName, name]) (.file (.ofText (change text)) m)) :=
    Disk.write_ok.2 ⟨_, (Disk.find_ok.1 (hfind true)).1, Or.inr ⟨content, m, hnode, rfl⟩⟩
  have hput : w.disk.tree.get? (l ++ [rootName] ++ [name]) = some (.file content m) := by
    rw [List.append_assoc]
    exact hnode
  have hover := h.overwrite (c := .ofText (change text)) hname (apart_rewrite hapart hfile _) hput
  rw [List.append_assoc] at hover
  refine ⟨_, ?_, hover⟩
  unfold changeRootFile readRootFile
  rw [hpath]
  refine Act.bind_ok.2 ⟨text, w, Act.bind_ok.2 ⟨w.disk, w, Act.disk_ok.2 ⟨rfl, rfl⟩, ?_⟩,
    Act.change_ok.2 ⟨_, hwrite, rfl⟩⟩
  rw [hread]
  rfl

/-- **A tracked file** is put in its place, in directories that are made where they are missing. -/
theorem inject_ok (h : Laid bases l own o w.disk L) (hbase : base ∈ bases)
    (hroot : IsPlain rootName) (hc : c.HasPlainPaths) {t : String} (ht : t ∈ c.trackedFiles)
    (hfits : Fits ("/".intercalate (base ++ (rootName :: c.targetNames t))))
    (hapart : (L ++ [(rootName :: c.targetNames t, some content)]).Apart) :
    ∃ d, inject c ("/".intercalate (base ++ [rootName])) t content w = .ok () { w with disk := d } ∧
      Laid bases l own o d (L ++ [(rootName :: c.targetNames t, some content)]) := by
  have hs := h.kept.scratch hbase
  have hplain : ∀ p ∈ rootName :: c.targetNames t, IsPlain p := by
    simpa using ⟨hroot, hc.target ht⟩
  have htarget : injectionTarget c ("/".intercalate (base ++ [rootName])) t =
      "/".intercalate (base ++ (rootName :: c.targetNames t)) := by
    rw [injectionTarget_eq (hs.isBase.append (by simpa using hroot)) hc ht, List.append_assoc]
    rfl
  unfold inject
  rw [htarget]
  exact h.stage hbase ⟨hplain, hfits⟩ (List.cons_ne_nil _ _) hapart

theorem injectAll_ok (h : Laid bases l own o w.disk L) (hbase : base ∈ bases)
    (hroot : IsPlain rootName) (hc : c.HasPlainPaths)
    (hsources : ∀ p ∈ sources, p.1 ∈ c.trackedFiles)
    (hfits : ∀ p ∈ sources, Fits ("/".intercalate (base ++ (rootName :: c.targetNames p.1))))
    (hapart : (L ++ injections c rootName sources).Apart) :
    ∃ d, (sources.forM fun p => inject c ("/".intercalate (base ++ [rootName])) p.1 p.2) w = .ok ()
      { w with disk := d } ∧
      Laid bases l own o d (L ++ injections c rootName sources) := by
  induction sources generalizing w L with
  | nil => exact ⟨w.disk, rfl, by rwa [injections, List.map_nil, List.append_nil]⟩
  | cons p sources ih =>
    have hassoc : L ++ injections c rootName (p :: sources) =
        (L ++ [(rootName :: c.targetNames p.1, some p.2)]) ++ injections c rootName sources := by
      simp [injections]
    rw [hassoc] at hapart
    obtain ⟨d, hinject, hlaid⟩ := inject_ok h hbase hroot hc (hsources p (List.mem_cons_self ..))
      (hfits p (List.mem_cons_self ..)) hapart.left
    obtain ⟨d', hrest, hlaid'⟩ := ih (w := { w with disk := d }) hlaid
      (fun q hq => hsources q (List.mem_cons_of_mem _ hq))
      (fun q hq => hfits q (List.mem_cons_of_mem _ hq)) hapart
    exact ⟨d', Act.forM_cons_ok.2 ⟨_, hinject, hrest⟩, by rwa [hassoc]⟩

/-! ## Preparing -/

/-- **A tarball is unpacked** into the scratch directory. -/
theorem Bench.extractTarball_ok (h : Bench w path la l) {mode : Nat}
    (hfile : w.disk.tree.get? la = some (.file (.tar members) mode)) (hmembers : Unpackable members)
    (hfits : ∀ m ∈ members, Fits ("/".intercalate ("" :: l ++ entryPath m.path))) :
    ∃ d, Archiver.Native.extractTarball path (Act.scratchPath w) (started w l) = .ok ()
      { w with disk := d } ∧
      Laid (openedBases (Act.scratchPath w) l) l [] (w.disk.opened l) d (layout members) := by
  have hs := h.opening.scratch
  have hn : Names (Text.split (Act.scratchPath w) '/') [] := by
    refine ⟨by simp, ?_⟩
    rw [List.append_nil, Text.intercalate_split]
    exact (Disk.fits_of_locate h.opening.locate).1
  obtain ⟨m, hself⟩ := hs.find_dirs hn hs.isDirs_nil true
  rw [List.append_nil, List.append_nil, Text.intercalate_split] at hself
  exact Archiver.Native.extractTarball_ok (w := started w l)
    (h.find_kept h.working.kept hfile) hself h.opening.laid (by simp [openedBases]) hmembers hfits

theorem checkRoot_ok (h : Laid bases l own o w.disk L) (hbase : base ∈ bases)
    (hn : Names base [rootName]) (hdir : L.view [rootName] = some none) (sdist : String) :
    checkRoot sdist rootName ("/".intercalate (base ++ [rootName])) w = .ok () w := by
  obtain ⟨m, hget⟩ := h.dir_of_view (by simp) hdir
  have hfind := (h.kept.scratch hbase).find_append hn (by simp) hget true
  have hisDir : w.disk.isDir ("/".intercalate (base ++ [rootName])) = true := by
    unfold Disk.isDir
    rw [hfind]
    rfl
  unfold checkRoot
  exact Act.bind_ok.2 ⟨w.disk, w, Act.disk_ok.2 ⟨rfl, rfl⟩, Act.check_ok.2 ⟨by simp [hisDir], rfl⟩⟩

/-- The tarball has a file with a text. -/
def HasText (members : List (Tar.Member Content)) (l : Location) (text : String) : Prop :=
  ∃ content, (layout members).fileAt l = some content ∧ content.text? = .ok text

/-- A tarball of a source tree that the tracked files fit into. -/
structure Patchable (c : Config) (rootName : String) (members : List (Tar.Member Content))
    (sources : List (String × Content)) (project info : String) : Prop where
  unpackable : Unpackable members
  project : HasText members [rootName, "pyproject.toml"] project
  info : HasText members [rootName, "PKG-INFO"] info
  /-- No tracked file is put in the place of a directory or below a file. -/
  apart : (layout members ++ injections c rootName sources).Apart
  /-- The new name of the directory at the top is free. -/
  free : c.renamed rootName ≠ rootName → ∀ m ∈ members, (entryPath m.path).head? ≠
    some (c.renamed rootName)

/-- There is a place for the scratch directory, and all paths fit there before and after the
move. -/
structure Room (c : Config) (w : Workspace) (l : Location) (rootName : String) (L : Layout) :
    Prop where
  place : w.disk.locate (Act.scratchPath w) false = .ok l
  free : w.disk.tree.get? l = none
  fits : ∀ base ∈ openedBases (Act.scratchPath w) l, ∀ p ∈ L, Fits ("/".intercalate (base ++ p.1))
  fits_moved : ∀ base ∈ openedBases (Act.scratchPath w) l, ∀ p ∈ L, p.1.head? = some rootName →
    Fits ("/".intercalate (base ++ (c.renamed rootName :: p.1.tail)))

theorem Room.fits_new {p : Placed} (h : Room c w l rootName L)
    (hbase : base ∈ openedBases (Act.scratchPath w) l) (hp : p ∈ L) {r : Location}
    (hr : p.1 = rootName :: r) : Fits ("/".intercalate (base ++ (c.renamed rootName :: r))) := by
  have hfits := h.fits_moved base hbase p hp (by rw [hr, List.head?_cons])
  rwa [hr, List.tail_cons] at hfits

/-- The files of the tarball with the two that are rewritten. -/
def rewritten (c : Config) (rootName : String) (members : List (Tar.Member Content))
    (project info : String) : Layout :=
  layout members ++
    [([rootName, "pyproject.toml"], some (.ofText (ProjectFile.forFork project c)))] ++
    [([rootName, "PKG-INFO"], some (.ofText (Metadata.forFork info c)))]

variable {project info : String}

/-- With the tracked files, each place is one of a member or of a tracked file. -/
theorem Patchable.origin (h : Patchable c rootName members sources project info) :
    ∀ p ∈ rewritten c rootName members project info ++ injections c rootName sources,
      ∃ q ∈ layout members ++ injections c rootName sources, q.1 = p.1 ∧
        q.2.isSome = p.2.isSome := by
  intro p hp
  obtain ⟨content, hproject, -⟩ := h.project
  obtain ⟨content', hinfo, -⟩ := h.info
  simp only [rewritten, List.mem_append, List.mem_singleton] at hp
  rcases hp with ((hp | rfl) | rfl) | hp
  · exact ⟨p, List.mem_append_left _ hp, rfl, rfl⟩
  · exact ⟨_, List.mem_append_left _ (Layout.mem_of_fileAt hproject), rfl, rfl⟩
  · exact ⟨_, List.mem_append_left _ (Layout.mem_of_fileAt hinfo), rfl, rfl⟩
  · exact ⟨p, List.mem_append_right _ hp, rfl, rfl⟩

theorem Patchable.view_renamed (h : Patchable c rootName members sources project info)
    (hne : c.renamed rootName ≠ rootName) :
    Layout.view (rewritten c rootName members project info ++ injections c rootName sources)
    [c.renamed rootName] =
      none := by
  refine Layout.view_eq_none fun p hp hpre => ?_
  obtain ⟨q, hq, hloc, -⟩ := h.origin p hp
  rw [← hloc] at hpre
  rcases List.mem_append.1 hq with hq | hq
  · obtain ⟨m, hm, rfl⟩ := List.mem_map.1 hq
    obtain ⟨r, hr⟩ := hpre
    refine h.free hne m hm ?_
    rw [show entryPath m.path = (placed m).1 from rfl, ← hr]
    rfl
  · obtain ⟨p', -, rfl⟩ := List.mem_map.1 hq
    obtain ⟨r, hr⟩ := hpre
    exact hne (List.cons.inj hr).1

variable (c rootName members sources project info) in
theorem isDir_top :
    Layout.IsDir (rewritten c rootName members project info ++ injections c rootName sources)
    [rootName] :=
  ⟨([rootName, "PKG-INFO"], some (.ofText (Metadata.forFork info c))),
    by simp [rewritten], by simp, by simp⟩

theorem Patchable.names (h : Patchable c rootName members sources project info)
    (hroom : Room c w l rootName (layout members ++ injections c rootName sources))
    (hbase : base ∈ openedBases (Act.scratchPath w) l) {r : Location}
    (hfile : (layout members).fileAt r = some content) :
    Names base r := by
  have hmem := Layout.mem_of_fileAt hfile
  obtain ⟨m, hm, hplaced⟩ := List.mem_map.1 hmem
  refine ⟨fun p hp => h.unpackable.plain m hm p ?_,
    hroom.fits base hbase _ (List.mem_append_left _ hmem)⟩
  rw [show entryPath m.path = (placed m).1 from rfl, hplaced]
  exact hp

theorem Patchable.names_top (h : Patchable c rootName members sources project info)
    (hc : c.HasPlainPaths)
    (hroom : Room c w l rootName (layout members ++ injections c rootName sources))
    (hb : IsBase base) (hbase : base ∈ openedBases (Act.scratchPath w) l) :
    Names base [rootName] ∧ Names base [c.renamed rootName] := by
  obtain ⟨content, hproject, -⟩ := h.project
  have hn := h.names hroom hbase hproject
  have hn' : Names base [c.renamed rootName, "pyproject.toml"] := by
    refine ⟨fun p hp => ?_, hroom.fits_new hbase
      (List.mem_append_left _ (Layout.mem_of_fileAt hproject)) rfl⟩
    rcases List.mem_cons.1 hp with rfl | hp
    · exact isPlain_renamed hc.fork (hn.plain rootName (by simp))
    · exact hn.plain p (List.mem_cons_of_mem _ hp)
  exact ⟨hn.left (q := [rootName]) hb, hn'.left (q := [c.renamed rootName]) hb⟩

theorem Patchable.rewrite_ok (h : Patchable c rootName members sources project info)
    (hroom : Room c w l rootName (layout members ++ injections c rootName sources))
    (hbase : base ∈ openedBases (Act.scratchPath w) l) (w₁ : Workspace)
    (hlaid : Laid (openedBases (Act.scratchPath w) l) l own o w₁.disk (layout members))
    (sdist : String) :
    ∃ d, (do
        changeRootFile sdist ("/".intercalate (base ++ [rootName])) "pyproject.toml"
          (ProjectFile.forFork · c)
        changeRootFile sdist ("/".intercalate (base ++ [rootName])) "PKG-INFO"
          (Metadata.forFork · c)) w₁ = .ok () { w₁ with disk := d } ∧
      Laid (openedBases (Act.scratchPath w) l) l own o d
          (rewritten c rootName members project info) := by
  obtain ⟨content, hproject, hprojectText⟩ := h.project
  obtain ⟨content', hinfo, hinfoText⟩ := h.info
  obtain ⟨d₁, hchange, hlaid₁⟩ := changeRootFile_ok hlaid hbase sdist (h.names hroom hbase hproject)
    h.unpackable.apart hproject hprojectText (ProjectFile.forFork · c)
  have hinfo' : (layout members ++
      [([rootName, "pyproject.toml"], some (.ofText (ProjectFile.forFork project c)))] :
      Layout).fileAt [rootName, "PKG-INFO"] = some content' := by
    rw [Layout.fileAt_append, Layout.fileAt_singleton, if_neg (by simp), Option.none_or, hinfo]
  obtain ⟨d₂, hchange', hlaid₂⟩ :=
    changeRootFile_ok (w := { w₁ with disk := d₁ }) hlaid₁ hbase sdist
      (h.names hroom hbase hinfo) (apart_rewrite h.unpackable.apart hproject _) hinfo' hinfoText
        (Metadata.forFork · c)
  exact ⟨d₂, Act.bind_ok.2 ⟨(), _, hchange, hchange'⟩, hlaid₂⟩

theorem Patchable.inject_ok (h : Patchable c rootName members sources project info)
    (hc : c.HasPlainPaths)
    (hroom : Room c w l rootName (layout members ++ injections c rootName sources))
    (hbase : base ∈ openedBases (Act.scratchPath w) l) (hroot : IsPlain rootName) (w₁ : Workspace)
    (hlaid : Laid (openedBases (Act.scratchPath w) l) l own o w₁.disk
      (rewritten c rootName members project info)) (hread : Wheel.ReadFrom c w₁.disk sources) :
    ∃ d, (do
        let sources ← c.readSources
        sources.forM fun p => inject c ("/".intercalate (base ++ [rootName])) p.1 p.2) w₁ =
          .ok () { w₁ with disk := d } ∧
      Laid (openedBases (Act.scratchPath w) l) l own o d
        (rewritten c rootName members project info ++ injections c rootName sources) := by
  have htracked : ∀ p ∈ sources, p.1 ∈ c.trackedFiles := fun p hp => by
    rw [← hread.names]
    exact List.mem_map_of_mem hp
  have hfits : ∀ p ∈ sources,
      Fits ("/".intercalate (base ++ (rootName :: c.targetNames p.1))) := fun p hp =>
    hroom.fits _ hbase (rootName :: c.targetNames p.1, some p.2)
      (List.mem_append_right _ (List.mem_map_of_mem hp))
  obtain ⟨d, hinject, hlaid'⟩ :=
    injectAll_ok hlaid hbase hroot hc htracked hfits (h.apart.mono h.origin)
  exact ⟨d, Act.bind_ok.2 ⟨sources, w₁, Wheel.readSources_ok.2 ⟨rfl, hread⟩, hinject⟩, hlaid'⟩

/-- **All that is done before the packing.** -/
theorem Bench.prepare_ok (h : Bench w path la l) {mode : Nat}
    (hfile : w.disk.tree.get? la = some (.file (.tar members) mode)) (hc : c.HasPlainPaths)
    (hp : Patchable c rootName members sources project info)
    (hread : Wheel.ReadFrom c w.disk sources)
    (hroom : Room c w l rootName (layout members ++ injections c rootName sources)) :
    ∃ d, prepare c path (Act.scratchPath w) rootName (started w l) =
        .ok () { w with disk := d.renamedIn l rootName (c.renamed rootName) } ∧
      Laid (openedBases (Act.scratchPath w) l) l [] (w.disk.opened l) d
        (rewritten c rootName members project info ++ injections c rootName sources) := by
  have hbase : Text.split (Act.scratchPath w) '/' ∈ openedBases (Act.scratchPath w) l := by
    simp [openedBases]
  have hisBase := h.opening.isBase
  obtain ⟨hnRoot, hnNew⟩ := hp.names_top hc hroom hisBase hbase
  have hroot : IsPlain rootName := hnRoot.plain rootName (by simp)
  have hjoin : ∀ {name : String}, IsPlain name → Path.join (Act.scratchPath w) name =
      "/".intercalate (Text.split (Act.scratchPath w) '/' ++ [name]) := by
    intro name hname
    rw [← Path.join_plain hisBase hname.slash, Text.intercalate_split]
  obtain ⟨content, hproject, -⟩ := hp.project
  have hdir : (layout members).view [rootName] = some none :=
    hp.unpackable.apart.view_of_isDir ⟨_, Layout.mem_of_fileAt hproject, by simp, by simp⟩
  -- The steps, each with the layout that it leaves behind.
  obtain ⟨d₁, hextract, hlaid₁⟩ := h.extractTarball_ok hfile hp.unpackable fun m hm =>
    hroom.fits ("" :: l) (by simp [openedBases]) (placed m)
      (List.mem_append_left _ (List.mem_map_of_mem hm))
  have hcheck := checkRoot_ok (w := { w with disk := d₁ }) hlaid₁ hbase hnRoot hdir path
  obtain ⟨d₂, hrewrite, hlaid₂⟩ := hp.rewrite_ok hroom hbase { w with disk := d₁ } hlaid₁ path
  obtain ⟨d₃, hinject, hlaid₃⟩ := hp.inject_ok hc hroom hbase hroot { w with disk := d₂ } hlaid₂
    (hread.imp fun _ _ hone => ⟨hone.1, h.opening.read_kept hlaid₂.kept hone.2⟩)
  have hmove : d₃.rename (Path.join (Act.scratchPath w) rootName)
      (Path.join (Act.scratchPath w) (c.renamed rootName)) =
      .ok (d₃.renamedIn l rootName (c.renamed rootName)) := by
    rw [hjoin hroot, hjoin (hnNew.plain _ (by simp))]
    refine (hlaid₃.kept.scratch hbase).rename_free (hlaid₃.dir_of_view (by simp) ?_)
      (fun hne => ?_) hnRoot hnNew
    · exact Layout.Apart.view_of_isDir (hp.apart.mono hp.origin) (isDir_top ..)
    · exact (hlaid₃.none_iff (by simp)).2 (hp.view_renamed (Ne.symm hne))
  refine ⟨d₃, ?_, hlaid₃⟩
  rw [← hjoin hroot] at hcheck hrewrite hinject
  have hedit : editRoot c path rootName (Path.join (Act.scratchPath w) rootName)
      { w with disk := d₁ } = .ok () { w with disk := d₃ } := by
    obtain ⟨_, w₂, hproject, hinfo⟩ := Act.bind_ok.1 hrewrite
    unfold editRoot
    refine Act.bind_ok.2 ⟨(), _, hcheck, ?_⟩
    refine Act.bind_ok.2 ⟨_, w₂, hproject, ?_⟩
    refine Act.bind_ok.2 ⟨(), _, hinfo, ?_⟩
    exact hinject
  unfold prepare moveRoot
  exact Act.bind_ok.2 ⟨(), _, hextract,
    Act.bind_ok.2 ⟨(), _, hedit, Act.change_ok.2 ⟨_, hmove, rfl⟩⟩⟩

/-! ## The new tarball -/

/-- The tarball has a file with a content at some names. -/
def HasFile (members : List (Tar.Member Content)) (names : List String) (data : Content) : Prop :=
  ∃ m ∈ members, m.path = "/".intercalate names ∧ m.body = .file data

/-- What a patch makes of a tarball. -/
structure IsPatched (c : Config) (rootName : String) (members : List (Tar.Member Content))
    (sources : List (String × Content)) (project info : String) (out : List (Tar.Member Content)) :
    Prop where
  nodup : (out.map (·.path)).Nodup
  noLink : ∀ m ∈ out, ∀ target, m.body ≠ .link target
  /-- All is below the directory at the top, which has its new name. -/
  top : ∀ m ∈ out, ∃ r, (∀ p ∈ r, IsPlain p) ∧ m.path = "/".intercalate (c.renamed rootName :: r)
  tracked : ∀ p ∈ sources, HasFile out (c.renamed rootName :: c.targetNames p.1) p.2
  project : (∀ t ∈ c.trackedFiles, c.targetNames t ≠ ["pyproject.toml"]) →
    HasFile out [c.renamed rootName, "pyproject.toml"] (.ofText (ProjectFile.forFork project c))
  info : (∀ t ∈ c.trackedFiles, c.targetNames t ≠ ["PKG-INFO"]) →
    HasFile out [c.renamed rootName, "PKG-INFO"] (.ofText (Metadata.forFork info c))
  /-- All other files keep their contents. -/
  others : ∀ m ∈ members, ∀ data, m.body = .file data → ∀ r, entryPath m.path = rootName :: r →
    r ≠ ["pyproject.toml"] → r ≠ ["PKG-INFO"] → (∀ t ∈ c.trackedFiles, c.targetNames t ≠ r) →
      HasFile out (c.renamed rootName :: r) data
  /-- There are no files but those of the old directory and the tracked ones. -/
  only : ∀ m ∈ out, ∀ data, m.body = .file data →
    ∃ r, m.path = "/".intercalate (c.renamed rootName :: r) ∧
    ((∃ t ∈ c.trackedFiles, c.targetNames t = r) ∨
      ∃ m' ∈ members, (∃ data', m'.body = .file data') ∧ entryPath m'.path = rootName :: r)

theorem targetNames_inj {t t' : String} (h : c.targetNames t = c.targetNames t') : t = t' := by
  have hsplit := List.append_cancel_left h
  rw [← Text.intercalate_split t, hsplit, Text.intercalate_split]

theorem mem_injections {p : Placed} : p ∈ injections c rootName sources ↔
    ∃ q ∈ sources, (rootName :: c.targetNames q.1, some q.2) = p := List.mem_map

theorem fileAt_injections (hread : Wheel.ReadFrom c d sources)
    {p : String × Content} (hp : p ∈ sources) :
    (injections c rootName sources).fileAt (rootName :: c.targetNames p.1) = some p.2 := by
  obtain ⟨data, hdata⟩ :=
    Option.ne_none_iff_exists'.1 (Layout.fileAt_ne_none (mem_injections.2 ⟨p, hp, rfl⟩))
  obtain ⟨q, hq, heq⟩ := mem_injections.1 (Layout.mem_of_fileAt hdata)
  obtain ⟨hplace, hcontent⟩ := Prod.mk.inj heq
  have hname : q.1 = p.1 := targetNames_inj (List.cons.inj hplace).2
  have hsame := hread.read hq
  rw [hname, hread.read hp, Except.ok.injEq] at hsame
  rw [hdata, ← hcontent, hsame]

theorem exists_tracked (hread : Wheel.ReadFrom c d sources) {r : Location} {data : Content}
    (h : (injections c rootName sources).fileAt (rootName :: r) = some data) :
    ∃ t ∈ c.trackedFiles, c.targetNames t = r := by
  obtain ⟨q, hq, heq⟩ := mem_injections.1 (Layout.mem_of_fileAt h)
  refine ⟨q.1, ?_, (List.cons.inj (Prod.mk.inj heq).1).2⟩
  rw [← hread.names]
  exact List.mem_map_of_mem hq

theorem fileAt_rest (hread : Wheel.ReadFrom c d sources) {r : Location}
    (h : ∀ t ∈ c.trackedFiles, c.targetNames t ≠ r) :
    Layout.fileAt (rewritten c rootName members project info ++ injections c rootName sources)
    (rootName :: r) =
      if r = ["PKG-INFO"] then some (.ofText (Metadata.forFork info c))
      else if r = ["pyproject.toml"] then some (.ofText (ProjectFile.forFork project c))
      else (layout members).fileAt (rootName :: r) := by
  have hnone : (injections c rootName sources).fileAt (rootName :: r) = none := by
    cases hfile : (injections c rootName sources).fileAt (rootName :: r) with
    | none => rfl
    | some data =>
      obtain ⟨t, ht, htarget⟩ := exists_tracked hread hfile
      exact absurd htarget (h t ht)
  rw [Layout.fileAt_append, hnone, Option.none_or, rewritten, Layout.fileAt_append,
    Layout.fileAt_append, Layout.fileAt_singleton, Layout.fileAt_singleton]
  simp only [List.cons.injEq, true_and, eq_comm (b := r)]
  by_cases hinfo : r = ["PKG-INFO"]
  · rw [if_pos hinfo, if_pos hinfo, Option.some_or]
  rw [if_neg hinfo, if_neg hinfo, Option.none_or]
  by_cases hproject : r = ["pyproject.toml"]
  · rw [if_pos hproject, if_pos hproject, Option.some_or]
  · rw [if_neg hproject, if_neg hproject, Option.none_or]

/-! ### Packing the layout -/

/-- What was packed are the nodes of a directory under another name. -/
structure PacksAs (d : Disk) (l : Location) (old new : String) (out : List (Tar.Member Content)) :
    Prop where
  nodup : (out.map (·.path)).Nodup
  mem : ∀ m, m ∈ out ↔ ∃ r n, d.tree.get? (l ++ old :: r) = some n ∧
    Archiver.Native.memberOf (new :: r) n = m

theorem nodup_paths {new : String} {nodes : List (Location × Node)} (hnew : IsPlain new)
    (hnodup : (nodes.map Prod.fst).Nodup) (hplain : ∀ p ∈ nodes, ∀ q ∈ p.1, IsPlain q) :
    ((Archiver.Native.membersOf [new] nodes).map (·.path)).Nodup := by
  have hpaths : (Archiver.Native.membersOf [new] nodes).map (·.path) =
      (nodes.map Prod.fst).map fun r => "/".intercalate (new :: r) := by
    unfold Archiver.Native.membersOf
    simp only [List.map_map, Function.comp_def, Archiver.Native.path_memberOf,
      List.singleton_append]
  rw [hpaths]
  refine List.Nodup.map_on (fun r hr q hq heq => ?_) hnodup
  have hslash : ∀ r ∈ nodes.map Prod.fst, ∀ p ∈ new :: r, '/' ∉ p.toList := by
    intro r hr p hp
    obtain ⟨node, hnode, rfl⟩ := List.mem_map.1 hr
    rcases List.mem_cons.1 hp with rfl | hp
    · exact hnew.slash
    · exact (hplain node hnode p hp).slash
  have hsplit := congrArg (Text.split · '/') heq
  simp only [Text.split_intercalate (List.cons_ne_nil _ _) (hslash r hr),
    Text.split_intercalate (List.cons_ne_nil _ _) (hslash q hq)] at hsplit
  exact (List.cons.inj hsplit).2

theorem Patchable.plain (h : Patchable c rootName members sources project info)
    (hc : c.HasPlainPaths) (hread : Wheel.ReadFrom c d sources) (hroot : IsPlain rootName) :
    ∀ p ∈ layout members ++ injections c rootName sources, ∀ q ∈ p.1, IsPlain q := by
  intro p hp q hq
  rcases List.mem_append.1 hp with hp | hp
  · obtain ⟨m, hm, rfl⟩ := List.mem_map.1 hp
    exact h.unpackable.plain m hm q hq
  · obtain ⟨source, hsource, rfl⟩ := mem_injections.1 hp
    rcases List.mem_cons.1 hq with rfl | hq
    · exact hroot
    · refine hc.target ?_ q hq
      rw [← hread.names]
      exact List.mem_map_of_mem hsource

theorem Patchable.fits_packed (h : Patchable c rootName members sources project info)
    (hc : c.HasPlainPaths) (hread : Wheel.ReadFrom c w.disk sources) (hroot : IsPlain rootName)
    (hroom : Room c w l rootName (layout members ++ injections c rootName sources))
    (hb : IsBase base) (hbase : base ∈ openedBases (Act.scratchPath w) l)
    (hlaid : Laid bases l own o d
      (rewritten c rootName members project info ++ injections c rootName sources)) {r : Location}
    (hr : d.tree.get? (l ++ rootName :: r) ≠ none) :
    Fits ("/".intercalate (base ++ (c.renamed rootName :: r))) := by
  have hview : Layout.view
      (rewritten c rootName members project info ++ injections c rootName sources) (rootName :: r) ≠
      none := mt (hlaid.none_iff (by simp)).2 hr
  obtain ⟨p, hp, rest, hrest⟩ :
      ∃ p ∈ rewritten c rootName members project info ++ injections c rootName sources,
      rootName :: r <+: p.1 := by
    refine Decidable.byContradiction fun hnone =>
      hview (Layout.view_eq_none fun p hp hpre => hnone ⟨p, hp, hpre⟩)
  obtain ⟨q, hq, hplace, -⟩ := h.origin p hp
  rw [← hplace] at hrest
  have hplain := h.plain hc hread hroot q hq
  rw [← hrest] at hplain
  have hn : Names base ((c.renamed rootName :: r) ++ rest) := by
    refine ⟨fun x hx => ?_, hroom.fits_new hbase hq hrest.symm⟩
    rw [List.cons_append] at hx
    rcases List.mem_cons.1 hx with rfl | hx
    · exact isPlain_renamed hc.fork hroot
    · exact hplain x (List.mem_cons_of_mem _ hx)
  exact (hn.left hb).fits

/-- **What was prepared is packed.** -/
theorem Bench.pack_ok (h : Bench w path la l) (hc : c.HasPlainPaths)
    (hp : Patchable c rootName members sources project info)
    (hread : Wheel.ReadFrom c w.disk sources)
    (hroom : Room c w l rootName (layout members ++ injections c rootName sources))
    (hlaid : Laid (openedBases (Act.scratchPath w) l) l [] (w.disk.opened l) d
      (rewritten c rootName members project info ++ injections c rootName sources))
    (he : d.renamedIn l rootName (c.renamed rootName) = e) :
    ∃ out mode, Archiver.Native.createTarball path (Act.scratchPath w) (c.renamed rootName)
      { w with disk := e } =
        .ok () { w with disk := e.put la (.file (.tar out) mode) } ∧
      Working w l [la] { w with disk := e.put la (.file (.tar out) mode) } ∧
      PacksAs d l rootName (c.renamed rootName) out := by
  have hbase : Text.split (Act.scratchPath w) '/' ∈ openedBases (Act.scratchPath w) l := by
    simp [openedBases]
  have hisBase := h.opening.isBase
  obtain ⟨hnRoot, hnNew⟩ := hp.names_top hc hroom hisBase hbase
  have hroot : IsPlain rootName := hnRoot.plain rootName (by simp)
  have hnew : IsPlain (c.renamed rootName) := hnNew.plain _ (by simp)
  have htop : topNames (c.renamed rootName) = [c.renamed rootName] := if_neg hnew.ne_empty
  have hget : ∀ r, e.tree.get? (l ++ [c.renamed rootName] ++ r) =
      d.tree.get? (l ++ rootName :: r) := by
    intro r
    rw [← he, List.append_assoc, List.singleton_append, Disk.get?_renamedIn]
  have hkept : Kept (openedBases (Act.scratchPath w) l) l [] (w.disk.opened l) e := by
    rw [← he]
    exact hlaid.kept.renamedIn hnew
  have hworking : Working w l [la] { w with disk := e } := h.owning ⟨rfl, hkept⟩
  obtain ⟨m, hdir⟩ := hlaid.dir_of_view (r := [rootName]) (by simp)
    (Layout.Apart.view_of_isDir (hp.apart.mono hp.origin) (isDir_top ..))
  have hjoin : Path.join (Act.scratchPath w) (c.renamed rootName) =
      "/".intercalate (Text.split (Act.scratchPath w) '/' ++ [c.renamed rootName]) := by
    rw [← Path.join_plain hisBase hnew.slash, Text.intercalate_split]
  have hplain : ∀ r, d.tree.get? (l ++ rootName :: r) ≠ none →
      ∀ p ∈ r, IsPlain p := fun r hr p hpr =>
    hlaid.kept.clear.plain _ hr p (List.mem_cons_of_mem _ hpr)
  have hdir' : e.tree.get? (l ++ topNames (c.renamed rootName)) = some (.dir m) := by
    rw [htop, ← List.append_nil (l ++ [_]), hget]
    exact hdir
  obtain ⟨nodes, mode, hlists, hcreate⟩ :=
      h.createTarball_ok hworking (Or.inr hnew) hdir' fun r hr => by
    rw [htop, show ({ w with disk := e } : Workspace).disk = e from rfl, hget] at hr
    rw [hjoin, Path.foldl_join (hisBase.append (by simpa using hnew)) (hplain r hr),
      List.append_assoc]
    exact hp.fits_packed hc hread hroot hroom hisBase hbase hlaid hr
  rw [htop] at hlists
  have hout : Archiver.Native.topMembers (c.renamed rootName) m ++
      Archiver.Native.membersOf (topNames (c.renamed rootName)) nodes =
        Archiver.Native.membersOf [c.renamed rootName] (([], .dir m) :: nodes) := by
    rw [htop, Archiver.Native.topMembers, if_neg hnew.ne_empty]
    rfl
  rw [hout] at hcreate
  refine ⟨_, mode, hcreate, hworking.put _ mode, nodup_paths hnew hlists.nodup fun p hpn => ?_,
    fun member => ?_⟩
  · have hmem : e.tree.get? (l ++ [c.renamed rootName] ++ p.1) = some p.2 :=
      (hlists.mem p.1 p.2).1 hpn
    rw [hget] at hmem
    exact hplain p.1 (by simp [hmem])
  · unfold Archiver.Native.membersOf
    simp only [List.mem_map, Prod.exists, hlists.mem, hget, List.singleton_append]

theorem PacksAs.hasFile {new : String} {out : List (Tar.Member Content)}
    (h : PacksAs d l rootName new out) (hlaid : Laid bases l own o d L) {r : Location}
    (hfile : L.fileAt (rootName :: r) = some content) :
    HasFile out (new :: r) content := by
  obtain ⟨m, hnode⟩ := (hlaid.file_iff (by simp)).2 hfile
  exact ⟨_, (h.mem _).2 ⟨r, _, hnode, rfl⟩, Archiver.Native.path_memberOf _ _, rfl⟩

theorem PacksAs.fileAt {new : String} {out : List (Tar.Member Content)}
    (h : PacksAs d l rootName new out) (hlaid : Laid bases l own o d L) {m : Tar.Member Content}
    (hm : m ∈ out) (hfile : m.body = .file content) :
    ∃ r, m.path = "/".intercalate (new :: r) ∧ L.fileAt (rootName :: r) = some content := by
  obtain ⟨r, n, hnode, rfl⟩ := (h.mem m).1 hm
  refine ⟨r, Archiver.Native.path_memberOf _ _, ?_⟩
  cases n with
  | dir mode => exact absurd hfile (by simp [Archiver.Native.memberOf])
  | link target => exact absurd hfile (by simp [Archiver.Native.memberOf])
  | file data mode =>
    simp only [Archiver.Native.memberOf, Tar.Body.file.injEq] at hfile
    subst hfile
    exact (hlaid.file_iff (by simp)).1 ⟨mode, hnode⟩

/-- **What is packed** is the patched tarball. -/
theorem PacksAs.isPatched {out : List (Tar.Member Content)}
    (h : PacksAs d l rootName (c.renamed rootName) out)
    (hp : Patchable c rootName members sources project info)
    (hread : Wheel.ReadFrom c w.disk sources)
    (hlaid : Laid bases l own o d
      (rewritten c rootName members project info ++ injections c rootName sources)) :
    IsPatched c rootName members sources project info out := by
  refine ⟨h.nodup, fun m hm target hlink => ?_, fun m hm => ?_, fun p hps => h.hasFile hlaid ?_,
    fun hnot => h.hasFile hlaid ?_, fun hnot => h.hasFile hlaid ?_,
    fun m hm data hfile r hpath hproject hinfo hnot => h.hasFile hlaid ?_,
    fun m hm data hfile => ?_⟩
  · obtain ⟨r, n, hnode, rfl⟩ := (h.mem m).1 hm
    cases n with
    | link target' => exact hlaid.kept.clear.noLink _ _ hnode
    | dir mode => exact absurd hlink (by simp [Archiver.Native.memberOf])
    | file content mode => exact absurd hlink (by simp [Archiver.Native.memberOf])
  · obtain ⟨r, n, hnode, rfl⟩ := (h.mem m).1 hm
    have hsome : d.tree.get? (l ++ rootName :: r) ≠ none := by simp [hnode]
    exact ⟨r, fun p hpr => hlaid.kept.clear.plain _ hsome p (List.mem_cons_of_mem _ hpr),
      Archiver.Native.path_memberOf _ _⟩
  · rw [Layout.fileAt_append, fileAt_injections hread hps, Option.some_or]
  · rw [fileAt_rest hread hnot, if_neg (by decide), if_pos rfl]
  · rw [fileAt_rest hread hnot, if_pos rfl]
  · rw [fileAt_rest hread hnot, if_neg hinfo, if_neg hproject,
      Layout.fileAt_iff hp.unpackable.nodup]
    exact List.mem_map.2 ⟨m, hm, by rw [placed, hpath, hfile]⟩
  · obtain ⟨r, hpath, hfileAt⟩ := h.fileAt hlaid hm hfile
    refine ⟨r, hpath, or_iff_not_imp_left.2 fun hnot => ?_⟩
    have horigin : ∀ {content : Content}, (layout members).fileAt (rootName :: r) = some content →
        ∃ m' ∈ members, (∃ data', m'.body = .file data') ∧ entryPath m'.path = rootName :: r := by
      intro content hcontent
      obtain ⟨m', hm', hplaced⟩ := List.mem_map.1 (Layout.mem_of_fileAt hcontent)
      obtain ⟨hpath', hbody⟩ := Prod.mk.inj hplaced
      refine ⟨m', hm', ?_, hpath'⟩
      split at hbody
      · next data' heq => exact ⟨data', heq⟩
      · exact absurd hbody (by simp)
    rw [fileAt_rest hread fun t ht heq => hnot ⟨t, ht, heq⟩] at hfileAt
    obtain ⟨content, hproject, -⟩ := hp.project
    obtain ⟨content', hinfo, -⟩ := hp.info
    split at hfileAt
    · next heq => exact horigin (heq ▸ hinfo)
    split at hfileAt
    · next heq => exact horigin (heq ▸ hproject)
    · exact horigin hfileAt

/-! ## The whole patch -/

/-- A patch that succeeds had room for the new name. -/
theorem size_of_patch_ok {u : Unit} (hname : rootName? path = some rootName)
    (hnew : IsPlain (c.renamed rootName)) (h : patch c native path w = .ok u w') :
    (c.renamed rootName).utf8ByteSize ≤ Tree.maxNameSize := by
  rw [patch_some c hname] at h
  obtain ⟨d, w₁, -, hbody, -⟩ := Act.withScratch_ok.1 h
  obtain ⟨_, w₂, hprepare, -⟩ := Act.bind_ok.1 hbody
  obtain ⟨_, w₃, -, hrest⟩ := Act.bind_ok.1 hprepare
  obtain ⟨_, w₄, -, hmove⟩ := Act.bind_ok.1 hrest
  obtain ⟨d', hrename, -⟩ := Act.change_ok.1 hmove
  obtain ⟨s, t, n, -, ht, -⟩ := Disk.rename_ok hrename
  have hbase : IsBase (Text.split (Act.scratchPath w) '/') :=
    Path.isBase_join w.tempDir (Disk.isPlain_freshName _)
  have hjoin := Path.join_plain hbase hnew.slash
  rw [Text.intercalate_split] at hjoin
  refine (Disk.fits_of_locate ht).1.names _ ?_
  rw [hjoin, Path.split_base (hbase.append (by simpa using hnew))]
  exact List.mem_append_right _ (List.mem_singleton_self _)

theorem small_patchable :
    Patchable smallConfig "p-1" smallMembers [("a", .ofText "a")] "name = \"p\"\n" "Name: p\n" where
  unpackable :=
    { noLink := by simp [smallMembers]
      plain := by decide +kernel
      nodup := by decide +kernel
      apart := by decide +kernel }
  project := ⟨_, rfl, by decide +kernel⟩
  info := ⟨_, rfl, by decide +kernel⟩
  apart := by decide +kernel
  free := by decide +kernel

theorem small_room : Room smallConfig (holding "p-1.tar.gz" smallMembers) ["tmp", "scratch0"] "p-1"
    (layout smallMembers ++ injections smallConfig "p-1" [("a", .ofText "a")]) where
  place := by decide +kernel
  free := by decide +kernel
  fits := by decide +kernel
  fits_moved := by decide +kernel

/-- **A source tree is patched**, if the system has room for its paths: then the path leads to a
tarball of the tree with the tracked files. -/
theorem patch_repacked (hwf : w.disk.tree.WellFormed) (hcwd : Tree.IsPlace w.disk.cwd)
    (hname : rootName? path = some rootName) {mode : Nat}
    (hfile : w.disk.find path true = .ok (la, .file (.tar members) mode)) (hc : c.HasPlainPaths)
    (hread : Wheel.ReadFrom c w.disk sources)
    (hp : Patchable c rootName members sources project info)
    (hroom : Room c w l rootName (layout members ++ injections c rootName sources)) :
    ∃ w' out mode', patch c native path w = .ok () w' ∧
      w'.disk.find path true = .ok (la, .file (.tar out) mode') ∧
      IsPatched c rootName members sources project info out := by
  obtain ⟨hlocate, hget⟩ := Disk.find_ok.1 hfile
  have hbench : Bench w path la l :=
    ⟨⟨hwf, Path.isBase_join w.tempDir (Disk.isPlain_freshName _), hroom.place, hroom.free,
      Disk.isPlace_of_locate hcwd hroom.place⟩, hlocate, ⟨_, _, hget⟩⟩
  obtain ⟨d, hprepare, hlaid⟩ := hbench.prepare_ok hget hc hp hread hroom
  generalize he : d.renamedIn l rootName (c.renamed rootName) = e at hprepare
  obtain ⟨out, mode', hpack, hdone, hpacks⟩ := hbench.pack_ok hc hp hread hroom hlaid he
  have hpacked : (e.put la (.file (.tar out) mode')).tree.get? la = some (.file (.tar out) mode') :=
    (Tree.get?_put hbench.ne_nil _ la).trans (if_pos rfl)
  have hok := hbench.withScratch_ok
      (b := fun scratch => prepare c path scratch rootName >>= fun _ =>
    Archiver.Native.createTarball path scratch (c.renamed rootName))
      ((Act.bind_of_ok hprepare).trans hpack)
  rw [← patch_some c hname] at hok
  have hfind := hbench.find_cleared hdone hpacked
  dsimp only at hok hfind
  generalize Act.cleared (e.put la (.file (.tar out) mode')) (Act.scratchPath w) = left at hok hfind
  exact ⟨_, out, mode', hok, hfind, hpacks.isPatched hp hread hlaid⟩

theorem patch_repacked_small :
    ∃ w' out mode, patch smallConfig native "p-1.tar.gz" (holding "p-1.tar.gz" smallMembers) =
      .ok () w' ∧ w'.disk.find "p-1.tar.gz" true = .ok (["p-1.tar.gz"], .file (.tar out) mode) ∧
    IsPatched smallConfig "p-1" smallMembers [("a", .ofText "a")]
    "name = \"p\"\n" "Name: p\n" out :=
  patch_repacked (Tree.wellFormed_of_parents (by decide +kernel)) (List.forall_mem_nil _)
    (by decide +kernel) rfl (by decide +kernel) (.cons ⟨rfl, rfl⟩ .nil) small_patchable small_room

/-! ### A name that does not fit -/

/-- A fork with a name of 300 characters. -/
def longConfig : Config := { smallConfig with forkPackage := .ofList (List.replicate 300 'f') }

theorem long_forkDistName : longConfig.forkDistName = .ofList (List.replicate 300 'f') := by
  unfold Config.forkDistName Name.normalize
  rw [show longConfig.forkPackage = .ofList (List.replicate 300 'f') from rfl, String.toList_ofList,
    Name.joinRuns_eq_self fun c hc => by rw [List.eq_of_mem_replicate hc]; decide]

theorem long_plainPaths : longConfig.HasPlainPaths where
  fork := by
    rw [long_forkDistName, String.toList_ofList]
    exact fun h => absurd (List.eq_of_mem_replicate h) (by decide)
  sourceDir := by decide
  tracked := by decide

theorem long_renamed : longConfig.renamed "p-1" = .ofList (List.replicate 300 'f') ++ "-1" := by
  have hproject := renamed_project longConfig "1"
  rw [show longConfig.distName ++ "-" ++ "1" = "p-1" by decide, long_forkDistName] at hproject
  rw [hproject, String.append_assoc]
  rfl

theorem long_patchable :
    Patchable longConfig "p-1" smallMembers [("a", .ofText "a")] "name = \"p\"\n" "Name: p\n" := by
  refine ⟨small_patchable.unpackable, small_patchable.project,
    small_patchable.info, by decide +kernel, ?_⟩
  intro hne m hm hhead
  have htop : ∀ m ∈ smallMembers, (entryPath m.path).head? = some "p-1" := by decide +kernel
  rw [htop m hm, Option.some.injEq] at hhead
  exact hne hhead.symm

/-- The directory at the top cannot have its new name on disk, although the tracked files fit into
the tarball. -/
theorem long_refused : longConfig.HasPlainPaths ∧
    (holding "p-1.tar.gz" smallMembers).disk.find "p-1.tar.gz" true =
      .ok (["p-1.tar.gz"], .file (.tar smallMembers) 0o644) ∧
    Wheel.ReadFrom longConfig (holding "p-1.tar.gz" smallMembers).disk [("a", .ofText "a")] ∧
    Patchable longConfig "p-1" smallMembers [("a", .ofText "a")] "name = \"p\"\n" "Name: p\n" ∧
    ¬ ∃ w', patch longConfig native "p-1.tar.gz" (holding "p-1.tar.gz" smallMembers) =
      .ok () w' := by
  refine ⟨long_plainPaths, rfl, .cons ⟨rfl, rfl⟩ .nil, long_patchable, ?_⟩
  rintro ⟨w', hok⟩
  have hsize := size_of_patch_ok (show rootName? "p-1.tar.gz" = some "p-1" by decide +kernel)
    (isPlain_renamed long_plainPaths.fork (by decide)) hok
  rw [long_renamed] at hsize
  exact absurd hsize (by decide +kernel)

end Sdist
end Rebadge
