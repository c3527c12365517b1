import Rebadge.Proofs.Sdist.Bench

/-!
# Patches of source tarballs that fail

Once the directory at the top was found it is there to the end (`Bench.top_of_prepare`), so the
prepared tarball is packed if all paths fit. A patch of a tarball without links that fails has then
left everything as it was (`patch_error`).
-/

namespace Rebadge.Sdist

open Disk (Fits openedBases)
open Act (Keeps leaves)
open Archiver (native)
open Archiver.Native (topNames)

variable {c : Config} {w w' : Workspace} {path rootName : String} {la l : Location}
  {own : List Location}

/-- What is in the tree is there in the tree that the act leaves behind, up to the contents of
files. -/
def Grows {α : Type} (act : Act α) : Prop := ∀ t, Keeps (fun w => Tree.Extends t w.disk.tree) act

theorem grows_changeRootFile (sdist root name : String) (change : String → String) :
    Grows (changeRootFile sdist root name change) := by
  intro t
  unfold changeRootFile readRootFile
  refine Keeps.bind (Act.keeps_disk.bind fun d => ?_) fun text =>
    Act.keeps_change fun _ _ hw hwrite => hw.trans (Disk.write_extends hwrite)
  split
  · exact Act.keeps_pure _
  · exact Act.keeps_throw _
  · exact Act.keeps_throw _

theorem grows_inject (c : Config) (root tracked : String) (content : Content) :
    Grows (inject c root tracked content) := by
  intro t
  unfold inject Act.makeParents
  refine Keeps.bind ?_ fun _ => Act.keeps_change fun _ _ hw hwrite =>
    hw.trans (Disk.write_extends hwrite)
  split
  · exact Act.keeps_makeDirs fun w hw => hw.trans (Disk.ensureAncestors_extends w.disk _)
  · exact Act.keeps_pure ()

theorem grows_editRoot (c : Config) (sdist rootName root : String) :
    Grows (editRoot c sdist rootName root) := by
  intro t
  unfold editRoot checkRoot
  refine Keeps.bind (Act.keeps_disk.bind fun d => ?_) fun _ =>
      (grows_changeRootFile _ _ _ _ t).bind fun _ =>
    (grows_changeRootFile _ _ _ _ t).bind fun _ => (keeps_readSources _ c).bind fun _ =>
      Act.keeps_forM fun p _ => grows_inject c root p.1 p.2 t
  split
  · exact Act.keeps_throw _
  · exact Act.keeps_pure ()

theorem isDir_of_editRoot {w₁ w₂ : Workspace} {sdist root : String}
    (h : editRoot c sdist rootName root w₁ = .ok () w₂) :
    ∃ k m, w₁.disk.find root true = .ok (k, .dir m) ∧ ∃ m, w₂.disk.tree.get? k = some (.dir m) := by
  have hgrows := grows_editRoot c sdist rootName root w₁.disk.tree w₁ (.refl _)
  rw [Act.leaves_of_ok h] at hgrows
  obtain ⟨u, w₃, hcheck, -⟩ := Act.bind_ok.1 h
  have hdir : w₁.disk.isDir root = true := by
    unfold checkRoot at hcheck
    obtain ⟨d, w₄, hdisk, hcheck⟩ := Act.bind_ok.1 hcheck
    obtain ⟨rfl, rfl⟩ := Act.disk_ok.1 hdisk
    simpa using (Act.check_ok.1 hcheck).1
  obtain ⟨k, m, hfind⟩ := Disk.isDir_iff.1 hdir
  exact ⟨k, m, hfind, hgrows.dir (Disk.find_ok.1 hfind).2⟩

theorem Working.locate_top {w₁ : Workspace} (hw : Working w l own w₁) {name : String}
    (hname : name = "" ∨ Path.IsPlain name) {f : Bool} {k : Location}
    (hlocate : w₁.disk.locate (Path.join (Act.scratchPath w) name) f = .ok k) :
    k = l ++ topNames name := by
  have hbase : Text.split (Act.scratchPath w) '/' ∈ openedBases (Act.scratchPath w) l := by
    simp [openedBases]
  have hscratch := hw.kept.scratch hbase
  have hself := Archiver.Native.locate_top hscratch hname
  rw [Text.intercalate_split] at hself
  rw [hself (Disk.fits_of_locate hlocate).1 f] at hlocate
  exact (Except.ok.inj hlocate).symm

/-- **The directory at the top** has its new name when the tarball is prepared. -/
theorem Bench.top_of_prepare (h : Bench w path la l) (hc : c.IsTame)
    (hlinks : Site.HasNoLinks w.disk la) (hslash : '/' ∉ rootName.toList)
    (hne : rootName ≠ "..") {w₁ : Workspace}
    (hprepare : prepare c path (Act.scratchPath w) rootName (started w l) = .ok () w₁) :
    (c.renamed rootName = "" ∨ Path.IsPlain (c.renamed rootName)) ∧
      ∃ m, w₁.disk.tree.get? (l ++ topNames (c.renamed rootName)) = some (.dir m) := by
  obtain ⟨u, w₂, hextract, hrest⟩ := Act.bind_ok.1 hprepare
  obtain ⟨u', w₃, hedit, hmove⟩ := Act.bind_ok.1 hrest
  have hw₂ := h.keeps_extract hlinks _ h.working
  rw [Act.leaves_of_ok hextract] at hw₂
  have hw₃ := h.keeps_editRoot hc hslash hne _ hw₂
  rw [Act.leaves_of_ok hedit] at hw₃
  obtain ⟨d, hrename, rfl⟩ := Act.change_ok.1 hmove
  have hplain : rootName = "" ∨ Path.IsPlain rootName := by
    by_cases hempty : rootName = ""
    · exact Or.inl hempty
    · have hdots := Disk.endsInDots_of_rename hrename
      rw [Path.endsInDots_join_eq _ hslash hempty] at hdots
      exact Or.inr ⟨hempty, by simpa using (Bool.or_eq_false_iff.1 hdots).1, hne, hslash⟩
  have hnew : c.renamed rootName = "" ∨ Path.IsPlain (c.renamed rootName) := by
    rcases hplain with rfl | hplain
    · exact Or.inl (renamed_empty c)
    · exact Or.inr (isPlain_renamed hc.fork hplain)
  obtain ⟨k, m, hfind, m', hdir⟩ := isDir_of_editRoot hedit
  have hk := hw₂.locate_top hplain (Disk.find_ok.1 hfind).1
  obtain ⟨s, t, n, hs, ht, hn, hmoves⟩ := Disk.rename_ok hrename
  have htaken := hmoves.taken []
  rw [List.append_nil, List.append_nil, hw₃.locate_top hnew ht, hw₃.locate_top hplain hs,
    ← hk, hdir] at htaken
  exact ⟨hnew, m', htaken⟩

/-- Once the directory at the top has its new name, some path in it is too long. -/
def Overlong (c : Config) (w : Workspace) (path : String) : Prop :=
  ∃ rootName l w₁ r, rootName? path = some rootName ∧
      w.disk.locate (Act.scratchPath w) false = .ok l ∧
    prepare c path (Act.scratchPath w) rootName (started w l) = .ok () w₁ ∧
    w₁.disk.tree.get? (l ++ topNames (c.renamed rootName) ++ r) ≠ none ∧
    ¬ Fits (r.foldl Path.join (Path.join (Act.scratchPath w) (c.renamed rootName)))

/-- **A prepared tarball is packed**, unless a path is too long. -/
theorem Bench.packed_of_prepare (h : Bench w path la l) (hc : c.IsTame)
    (hlinks : Site.HasNoLinks w.disk la) (hname : rootName? path = some rootName)
    (hne : rootName ≠ "..") (hfits : ¬ Overlong c w path) {w₁ : Workspace}
    (hprepare : prepare c path (Act.scratchPath w) rootName (started w l) = .ok () w₁) :
    ∃ w₂, Archiver.Native.createTarball path (Act.scratchPath w)
      (c.renamed rootName) w₁ = .ok () w₂ := by
  have hslash := slash_rootName hname
  have hprepared := h.keeps_prepare hc hlinks hslash hne _ h.working
  rw [Act.leaves_of_ok hprepare] at hprepared
  obtain ⟨hnew, m, hdir⟩ := h.top_of_prepare hc hlinks hslash hne hprepare
  obtain ⟨nodes, mode, -, hcreate⟩ := h.createTarball_ok (h.owning hprepared) hnew hdir fun r hr =>
    Decidable.byContradiction fun hnot =>
      hfits ⟨rootName, l, w₁, r, hname, h.opening.locate, hprepare, hr, hnot⟩
  exact ⟨_, hcreate⟩

/-- **A failed patch** leaves everything as it was, unless a path got too long with the new name. -/
theorem patch_error (hwf : w.disk.tree.WellFormed) (hcwd : Tree.IsPlace w.disk.cwd)
    (hlocate : w.disk.locate path true = .ok la)
    (hfile : ∃ content m, w.disk.tree.get? la = some (.file content m))
    (hlinks : Site.HasNoLinks w.disk la) (hc : c.IsTame) (hroot : rootName? path ≠ some "..")
    (hfits : ¬ Overlong c w path) {failure : Failure}
    (h : patch c native path w = .error failure w') :
    Disk.Aside [] w.disk w'.disk := by
  cases hname : rootName? path with
  | none =>
    rw [patch_none c native hname] at h
    cases h
    exact .refl _ _
  | some rootName =>
    rw [patch_some c hname] at h
    have hne : rootName ≠ ".." := by
      rintro rfl
      exact hroot hname
    rcases bench_or_error hwf hcwd hlocate hfile with ⟨l, hbench⟩ | ⟨e, hmake⟩
    · have hleaves := Act.leaves_of_error h
      cases hprepare : prepare c path (Act.scratchPath w) rootName (started w l) with
      | error e w₁ =>
        have hprepared := hbench.keeps_prepare hc hlinks (slash_rootName hname) hne _ hbench.working
        rw [Act.leaves_of_error hprepare] at hprepared
        rw [← hleaves]
        refine hbench.aside_withScratch ?_
        rwa [Act.leaves_bind_of_error hprepare]
      | ok u w₁ =>
        obtain ⟨w₂, hcreate⟩ := hbench.packed_of_prepare hc hlinks hname hne hfits hprepare
        have hok := hbench.withScratch_ok
            (b := fun scratch => prepare c path scratch rootName >>= fun _ =>
          Archiver.Native.createTarball path scratch (c.renamed rootName))
            ((Act.bind_of_ok hprepare).trans hcreate)
        rw [hok] at h
        exact absurd h (by simp)
    · rw [Act.withScratch_of_error _ hmake] at h
      cases h
      exact .refl _ _

/-- A tarball without PKG-INFO. -/
def bareMembers : List (Tar.Member Content) := [⟨"p-1/pyproject.toml", .file (.bytes []), 0o644⟩]

theorem patch_error_bare :
    ∃ failure w', patch smallConfig native "p-1.tar.gz" (holding "p-1.tar.gz" bareMembers) =
    .error failure w' ∧ Disk.Aside [] (holding "p-1.tar.gz" bareMembers).disk w'.disk := by
  have hfails : (Act.outcome (patch smallConfig native "p-1.tar.gz")
      (holding "p-1.tar.gz" bareMembers)).isOk = false := by
    decide +kernel
  cases houtcome : Act.outcome (patch smallConfig native "p-1.tar.gz")
    (holding "p-1.tar.gz" bareMembers) with
  | ok u => rw [houtcome] at hfails; exact absurd hfails (by simp [Except.isOk, Except.toBool])
  | error failure =>
    have herror := Act.eq_of_outcome_error houtcome
    refine ⟨failure, _, herror, patch_error (Tree.wellFormed_of_parents (by decide +kernel))
      (by simp [Tree.IsPlace, holding]) (by decide +kernel)
      ⟨_, _, rfl⟩ (holding_noLinks rfl (by simp [bareMembers]))
      (by decide +kernel) (by decide +kernel) ?_ herror⟩
    rintro ⟨rootName, l, w₁, r, hname, hl, hprepare, -⟩
    have hroot : rootName? "p-1.tar.gz" = some "p-1" := by decide +kernel
    have hplace : (holding "p-1.tar.gz" bareMembers).disk.locate
        (Act.scratchPath (holding "p-1.tar.gz" bareMembers)) false =
        .ok ["tmp", "scratch0"] := by decide +kernel
    have hunprepared : (Act.outcome (prepare smallConfig "p-1.tar.gz"
        (Act.scratchPath (holding "p-1.tar.gz" bareMembers)) "p-1")
        (started (holding "p-1.tar.gz" bareMembers) ["tmp", "scratch0"])).isOk =
          false := by decide +kernel
    rw [hroot, Option.some.injEq] at hname
    rw [hplace, Except.ok.injEq] at hl
    subst hname hl
    rw [Act.outcome, hprepare] at hunprepared
    exact absurd hunprepared (by simp [Except.isOk, Except.toBool])

/-! ## A tarball with links -/

/-- The new name of the directory at the top is that of the directory's link. -/
def loopMembers : List (Tar.Member Content) := [
  ⟨"T/pyproject.toml", .file (.bytes []), 0o644⟩, ⟨"T/PKG-INFO", .file (.bytes []), 0o644⟩,
  ⟨"f-1", .link "T", 0o777⟩, ⟨"p-1", .link "f-1", 0o777⟩]

/-- The number of members of a tarball. -/
def memberCount? (d : Disk) (path : String) : Option Nat :=
  (d.read path).toOption.bind fun content => content.tarMembers.toOption.map List.length

/-- **A lost tarball.** With its new name the link leads to itself, and the tarball has been emptied
by then. -/
theorem loop_loses :
    (Act.outcome (patch smallConfig native "p-1.tar.gz") (holding "p-1.tar.gz" loopMembers)).isOk =
      false ∧
    memberCount? (holding "p-1.tar.gz" loopMembers).disk "p-1.tar.gz" = some 4 ∧
    memberCount? (leaves (patch smallConfig native "p-1.tar.gz")
      (holding "p-1.tar.gz" loopMembers)).disk "p-1.tar.gz" = some 0 := by
  decide +kernel

end Rebadge.Sdist
