import Rebadge.Archiver.Native
import Rebadge.Proofs.Archiver.Unpacking
import Rebadge.Proofs.Wheel.DistInfo

/-!
# Moving the directory for metadata

The entries of the directory are unpacked, deleted from the archive, and added again below the new
name. All of this succeeds if the deletion is granted, the paths and the files fit and the new names
are free (`moveBy_ok`), and then the archive holds the entries outside the directory followed by the
tree under its new name (`moved_of_ok`, `exists_moved`).
-/

namespace Rebadge.Wheel

open Archiver Archiver.Native
open Disk (Scratch Single Fits newDirMode privateMode)
open Rebadge.Path (IsBase)

variable {w w' : Workspace} {d₀ d : Disk} {path : String} {la l : Location}
  {base : List String} {dir : String} {es entries : List (Zip.Entry Content)}
  {c : Config} {s : Scan}

/-- The entries for what the entries of a directory stand for, below another directory. -/
def movedEntries (new : String) (es : List (Zip.Entry Content)) : List (Zip.Entry Content) :=
  (Sorted.sort (fun a b => Tree.locationLe a.1 b.1) (treeNodes es)).map (treeEntry new)

/-- What happens with the scratch directory. -/
def moveBy (c : Config) (archiver : Archiver) (path : String) (s : Scan)
    (scratch : String) : Act String := do
  archiver.extractEntries path s.entries scratch
  archiver.deleteEntries path s.entries
  let extracted ← Act.ofExcept (findDistInfo (← Act.disk) scratch c.distName path)
  let newName := c.renamed ((Path.fileName? extracted).getD "")
  Act.change (·.rename extracted (Path.join scratch newName))
  archiver.addTree path scratch newName
  return newName

theorem renameDistInfo_eq (c : Config) (archiver : Archiver) (path : String) (s : Scan) :
    renameDistInfo c archiver path s = Act.withScratch (moveBy c archiver path s) := rfl

/-- The disk when the entries are unpacked and deleted. -/
def unpackedDisk (d : Disk) (l la : Location) (es kept : List (Zip.Entry Content)) : Disk :=
  (allExtracted d l es).put la (.file (.zip kept) privateMode)

/-- The disk when the directory has its new name. -/
def renamedDisk (c : Config) (s : Scan) (d : Disk) (l la : Location)
    (es kept : List (Zip.Entry Content)) : Disk :=
  (unpackedDisk d l la es kept).renamedIn l s.dir (c.renamed s.dir)

/-- The disk when it is in the archive again. -/
def movedDisk (c : Config) (s : Scan) (d : Disk) (l la : Location)
    (es kept : List (Zip.Entry Content)) : Disk :=
  (renamedDisk c s d l la es kept).put la
    (.file (.zip (kept ++ movedEntries (c.renamed s.dir) es)) privateMode)

/-- The entries of a directory, as they are found in the archive. -/
structure DirEntries (entries : List (Zip.Entry Content)) (s : Scan)
    (es : List (Zip.Entry Content)) : Prop where
  isDirName : IsDirName s.dir
  names : Zip.names es = s.entries
  found : ∀ e ∈ es, Zip.find? entries e.name = some e
  extractable : Extractable es
  within : Within s.dir es
  ne_nil : es ≠ []

/-- What it takes to move the directory. -/
structure CanMove (c : Config) (s : Scan) (base : List String)
    (es kept : List (Zip.Entry Content)) : Prop where
  fits : ∀ e ∈ es, Fits (Path.join ("/".intercalate base) e.name)
  intact : ∀ e ∈ es, Path.endsInSlash e.name = false → e.intact = true
  fits_old : Fits ("/".intercalate (base ++ [s.dir]))
  fits_new : Fits ("/".intercalate (base ++ [c.renamed s.dir]))
  fits_nodes : ∀ p ∈ treeNodes es, Fits ("/".intercalate (base ++ c.renamed s.dir :: p.1))
  sizes : ∀ p ∈ treeNodes es, nodeFits p = true
  free : (Zip.names (kept ++ movedEntries (c.renamed s.dir) es)).Nodup

theorem CanMove.data_fits {base : List String} {kept : List (Zip.Entry Content)}
    (h : CanMove c s base es kept) (hwithin : Within s.dir es) {e : Zip.Entry Content} (he : e ∈ es)
    (hslash : Path.endsInSlash e.name = false) : e.data.fitsEntry = true := by
  obtain ⟨r, -, hpath⟩ := hwithin.filePath he hslash
  exact h.sizes (r, .file e.data Disk.newFileMode)
    ((mem_treeNodes hwithin).2 ⟨e, he, .inl ⟨hslash, hpath, rfl⟩⟩)

/-! ## Its steps -/

section Steps

variable {kept : List (Zip.Entry Content)}

theorem DirEntries.deleted (hes : DirEntries entries s es)
    (h : Unpacked d₀ d path la entries base l []) (hkept : Zip.delete s.entries entries = kept) :
    Unpacked d₀ (unpackedDisk d l la es kept) path la kept base l es := by
  have hnodup : (Zip.names kept).Nodup := by
    rw [← hkept]
    exact Zip.nodup_edit _ h.stored.nodup
  exact (h.extract hes.extractable).edit hnodup privateMode

theorem DirEntries.extractEntries_ok (hes : DirEntries entries s es)
    (h : Unpacked d₀ w.disk path la entries base l []) (w₁ : Workspace) :
    native.extractEntries path s.entries ("/".intercalate base) w = .ok () w₁ ↔
      (∀ e ∈ es, Fits (Path.join ("/".intercalate base) e.name)) ∧
        (∀ e ∈ es, Path.endsInSlash e.name = false → e.intact = true) ∧
        w₁ = { w with disk := allExtracted w.disk l es } := by
  have hempty : Extracted w.disk w.disk base l [] := ⟨h.scratch, h.holds, fun _ _ => rfl⟩
  rw [← extractEach_ok hempty hes.extractable hes.found h.stored.hasArchive h.apart, hes.names]
  refine Native.extractEntries_ok.trans ⟨?_, fun hok => ⟨entries, h.stored.openZip, hok⟩⟩
  rintro ⟨es', hopen, hok⟩
  rw [h.stored.openZip] at hopen
  cases hopen
  exact hok

theorem DirEntries.deleteEntries_ok (hes : DirEntries entries s es)
    (h : Unpacked d₀ w.disk path la entries base l []) (hkept : Zip.delete s.entries entries = kept)
    (w₁ : Workspace) :
    native.deleteEntries path s.entries { w with disk := allExtracted w.disk l es } = .ok () w₁ ↔
      Grants w path kept ∧ w₁ = { w with disk := unpackedDisk w.disk l la es kept } := by
  subst hkept
  have hstored := (h.extract hes.extractable).stored
  constructor
  · intro hok
    obtain ⟨entries', hedit⟩ := Native.deleteEntries_ok.1 hok
    obtain ⟨hopen, hrewriting, -⟩ := editArchive_ok.1 hedit
    obtain rfl := (EStateM.Result.ok.inj (hopen.symm.trans hstored.openZip)).1
    have hgrants := (rewriting_ok.1 hrewriting).1
    have heq := hok.symm.trans (hstored.deleteEntries hgrants)
    exact ⟨hgrants.congr rfl rfl, (EStateM.Result.ok.inj heq).2⟩
  · rintro ⟨hgrants, rfl⟩
    exact hstored.deleteEntries (w := { w with disk := allExtracted w.disk l es })
      (hgrants.congr rfl rfl)

theorem DirEntries.rename_ok (hes : DirEntries entries s es)
    (h : Unpacked d₀ w.disk path la entries base l []) (hkept : Zip.delete s.entries entries = kept)
    (hfork : '/' ∉ c.forkDistName.toList) (w₁ : Workspace) :
    Act.change (·.rename ("/".intercalate (base ++ [s.dir]))
      ("/".intercalate (base ++ [c.renamed s.dir])))
        { w with disk := unpackedDisk w.disk l la es kept } = .ok () w₁ ↔
      Fits ("/".intercalate (base ++ [s.dir])) ∧
        Fits ("/".intercalate (base ++ [c.renamed s.dir])) ∧
        w₁ = { w with disk := renamedDisk c s w.disk l la es kept } := by
  have hunpacked := hes.deleted h hkept
  have hnew := isDirName_renamed hfork hes.isDirName
  have hok := fun d₁ => hunpacked.scratch.rename_ok d₁ (hunpacked.single hes.within hes.ne_nil)
    hes.isDirName.isPlain hnew.isPlain
  rw [Act.change_ok]
  simp only [hok]
  constructor
  · rintro ⟨d₁, ⟨hold, hnew', hd₁⟩, hw₁⟩
    rw [hd₁] at hw₁
    exact ⟨hold, hnew', hw₁⟩
  · rintro ⟨hold, hnew', hw₁⟩
    exact ⟨_, ⟨hold, hnew', rfl⟩, hw₁⟩

theorem DirEntries.addTree_ok (hes : DirEntries entries s es)
    (h : Unpacked d₀ w.disk path la entries base l []) (hkept : Zip.delete s.entries entries = kept)
    (hfork : '/' ∉ c.forkDistName.toList)
    (hfits : Fits ("/".intercalate (base ++ [c.renamed s.dir]))) (w₁ : Workspace) :
    native.addTree path ("/".intercalate base) (c.renamed s.dir)
        { w with disk := renamedDisk c s w.disk l la es kept } = .ok () w₁ ↔
      (∀ p ∈ treeNodes es, Fits ("/".intercalate (base ++ c.renamed s.dir :: p.1))) ∧
        (∀ p ∈ treeNodes es, nodeFits p = true) ∧
        (Zip.names (kept ++ movedEntries (c.renamed s.dir) es)).Nodup ∧
        w₁ = { w with disk := movedDisk c s w.disk l la es kept } := by
  have hnew := isDirName_renamed hfork hes.isDirName
  obtain ⟨hstored, hadd, hbelow⟩ : Stored d₀ (renamedDisk c s w.disk l la es kept) path la kept ∧
      Addable (renamedDisk c s w.disk l la es kept) base l (c.renamed s.dir) ∧
      (renamedDisk c s w.disk l la es kept).tree.below (l ++ [c.renamed s.dir]) =
        Sorted.sort (fun a b => Tree.locationLe a.1 b.1) (treeNodes es) :=
    (hes.deleted h hkept).rename hes.within hes.ne_nil hes.extractable hnew.isFileName
  have hmode : (renamedDisk c s w.disk l la es kept).tree.get? la =
      some (.file (.zip kept) privateMode) := by
    unfold renamedDisk
    rw [Disk.get?_renamedIn_apart h.apart]
    exact (Tree.get?_put h.stored.ne_nil _ la).trans (if_pos rfl)
  unfold movedDisk movedEntries
  generalize renamedDisk c s w.disk l la es kept = d₂ at hstored hadd hbelow hmode ⊢
  have hadded := addTree_ok_iff (w := { w with disk := d₂ }) w₁ hstored hmode hadd hbelow hfits
  simp only [Sorted.mem_sort] at hadded
  exact hadded

end Steps

/-- **The move.** -/
theorem moveBy_ok (h : Unpacked d₀ w.disk path la entries base l []) (hes : DirEntries entries s es)
    (hfork : '/' ∉ c.forkDistName.toList) {kept : List (Zip.Entry Content)}
    (hkept : Zip.delete s.entries entries = kept) {r : String} :
    moveBy c native path s ("/".intercalate base) w = .ok r w' ↔
      CanMove c s base es kept ∧ Grants w path kept ∧
        findDistInfo (unpackedDisk w.disk l la es kept) ("/".intercalate base) c.distName
          path = .ok ("/".intercalate (base ++ [s.dir])) ∧
        r = c.renamed s.dir ∧
        w' = { w with disk := movedDisk c s w.disk l la es kept } := by
  have hunpacked := hes.deleted h hkept
  have hname : (Path.fileName? ("/".intercalate (base ++ [s.dir]))).getD "" = s.dir := by
    rw [Path.fileName?_append h.scratch.isBase hes.isDirName.isPlain, Option.getD_some]
  have hjoin : Path.join ("/".intercalate base) (c.renamed s.dir) =
      "/".intercalate (base ++ [c.renamed s.dir]) :=
    Path.join_plain h.scratch.isBase (isDirName_renamed hfork hes.isDirName).slash
  have hextract := hes.extractEntries_ok h
  have hdelete := hes.deleteEntries_ok h hkept
  have hrename := hes.rename_ok h hkept hfork
  have haddTree := hes.addTree_ok h hkept hfork
  -- Names for the later disks keep unification from unfolding them.
  generalize movedDisk c s w.disk l la es kept = d₃ at haddTree ⊢
  generalize renamedDisk c s w.disk l la es kept = d₂ at hrename haddTree
  unfold moveBy
  constructor
  · intro hok
    obtain ⟨_, w₁, hextracted, hok⟩ := Act.bind_ok.1 hok
    obtain ⟨hfits, hintact, rfl⟩ := (hextract w₁).1 hextracted
    obtain ⟨_, w₂, hdeleted, hok⟩ := Act.bind_ok.1 hok
    obtain ⟨hgrants, rfl⟩ := (hdelete w₂).1 hdeleted
    obtain ⟨d₂, w₃, hdisk, hok⟩ := Act.bind_ok.1 hok
    obtain ⟨rfl, rfl⟩ := Act.disk_ok.1 hdisk
    obtain ⟨p, w₄, hfound, hok⟩ := Act.bind_ok.1 hok
    obtain ⟨hfind, rfl⟩ := Act.ofExcept_ok.1 hfound
    dsimp only at hfind
    obtain rfl := eq_of_findDistInfo hunpacked.scratch
      (hunpacked.single hes.within hes.ne_nil) hes.isDirName hfind
    rw [hname, hjoin] at hok
    obtain ⟨_, w₅, hrenamed, hok⟩ := Act.bind_ok.1 hok
    obtain ⟨hold, hfits', rfl⟩ := (hrename w₅).1 hrenamed
    obtain ⟨_, w₆, hadded, hok⟩ := Act.bind_ok.1 hok
    obtain ⟨hnodes, hsizes, hfree, rfl⟩ := (haddTree hfits' w₆).1 hadded
    obtain ⟨rfl, rfl⟩ := Act.pure_ok.1 hok
    exact ⟨⟨hfits, hintact, hold, hfits', hnodes, hsizes, hfree⟩, hgrants, hfind, rfl, rfl⟩
  · rintro ⟨hcan, hgrants, hfind, rfl, rfl⟩
    refine Act.bind_ok.2 ⟨(), _, (hextract _).2 ⟨hcan.fits, hcan.intact, rfl⟩, ?_⟩
    refine Act.bind_ok.2 ⟨(), _, (hdelete _).2 ⟨hgrants, rfl⟩, ?_⟩
    refine Act.bind_ok.2 ⟨_, _, Act.disk_ok.2 ⟨rfl, rfl⟩, ?_⟩
    refine Act.bind_ok.2 ⟨_, _, Act.ofExcept_ok.2 ⟨hfind, rfl⟩, ?_⟩
    rw [hname, hjoin]
    refine Act.bind_ok.2 ⟨(), _, (hrename _).2 ⟨hcan.fits_old, hcan.fits_new, rfl⟩, ?_⟩
    refine Act.bind_ok.2
      ⟨(), _, (haddTree hcan.fits_new _).2 ⟨hcan.fits_nodes, hcan.sizes, hcan.free, rfl⟩, ?_⟩
    exact Act.pure_ok.2 ⟨rfl, rfl⟩

/-! ## With its scratch directory -/

/-- There is a place for a scratch directory. -/
def HasScratch (w : Workspace) (l : Location) : Prop :=
  w.disk.locate (Act.scratchPath w) false = .ok l ∧ w.disk.tree.get? l = none

/-- The names that the path of the scratch directory leads through. -/
def scratchBase (w : Workspace) : List String := Text.split (Act.scratchPath w) '/'

theorem isBase_scratch (w : Workspace) : IsBase (scratchBase w) :=
  Path.isBase_join w.tempDir (Disk.isPlain_freshName _)

theorem intercalate_scratchBase (w : Workspace) :
    "/".intercalate (scratchBase w) = Act.scratchPath w :=
  Text.intercalate_split _

theorem HasScratch.unpacked (h : HasScratch w l) (hstored : Stored d₀ w.disk path la entries)
    (hwf : w.disk.tree.WellFormed) :
    Unpacked d₀ (w.disk.put l (.dir newDirMode)) path la entries (scratchBase w) l [] := by
  refine unpacked_nil hstored hwf (isBase_scratch w) ?_ h.2
  rw [intercalate_scratchBase]
  exact h.1

theorem stored_moved (h : Unpacked d₀ d path la entries base l []) (hes : DirEntries entries s es)
    (hfork : '/' ∉ c.forkDistName.toList) (hfits : Fits ("/".intercalate base))
    {kept : List (Zip.Entry Content)} (hkept : Zip.delete s.entries entries = kept)
    (hfree : (Zip.names (kept ++ movedEntries (c.renamed s.dir) es)).Nodup) :
    Stored d₀ (Act.cleared (movedDisk c s d l la es kept) ("/".intercalate base)) path la
      (kept ++ movedEntries (c.renamed s.dir) es) := by
  have hnew := isDirName_renamed hfork hes.isDirName
  have hunpacked := hes.deleted h hkept
  have hsingle := hunpacked.single hes.within hes.ne_nil
  have hstored : Stored d₀ (renamedDisk c s d l la es kept) path la kept :=
    (hunpacked.rename hes.within hes.ne_nil hes.extractable hnew.isFileName).1
  have hscratch : Scratch (renamedDisk c s d l la es kept) base l :=
    hunpacked.scratch.renamedIn _ hsingle
  unfold movedDisk
  generalize renamedDisk c s d l la es kept = d₂ at hstored hscratch
  obtain ⟨m, hfile⟩ := hstored.file
  exact stored_cleared (hstored.put hfree privateMode)
    (hscratch.rewrite h.apart hfile) hfits h.apart h.free

/-- **What a move leaves behind**, if it succeeds. -/
theorem moved_of_ok (hstored : Stored d₀ w.disk path la entries) (hwf : w.disk.tree.WellFormed)
    (hes : DirEntries entries s es) (hfork : '/' ∉ c.forkDistName.toList) {r : String}
    (hok : renameDistInfo c native path s w = .ok r w') :
    r = c.renamed s.dir ∧
      (∃ l, HasScratch w l ∧ CanMove c s (scratchBase w) es (Zip.delete s.entries entries)) ∧
      ∃ d, w' = { w with disk := d } ∧
        Stored d₀ d path la (Zip.delete s.entries entries ++
          movedEntries (c.renamed s.dir) es) := by
  rw [renameDistInfo_eq, Act.withScratch_ok] at hok
  obtain ⟨d₁, w₁, hmake, hbody, rfl⟩ := hok
  obtain ⟨l, hlocate, hnone, rfl⟩ := Disk.makeDir_ok hmake
  have hscratch : HasScratch w l := ⟨hlocate, hnone⟩
  have hunpacked := hscratch.unpacked hstored hwf
  rw [← intercalate_scratchBase] at hbody
  obtain ⟨hcan, -, -, hr, hw⟩ := (moveBy_ok (w := { w with disk := w.disk.put l (.dir newDirMode) })
    hunpacked hes hfork rfl).1 hbody
  refine ⟨hr, ⟨l, hscratch, hcan⟩, _, ?_, stored_moved hunpacked hes hfork ?_ rfl hcan.free⟩
  · rw [hw, intercalate_scratchBase]
  · rw [intercalate_scratchBase]
    exact (Disk.fits_of_locate hlocate).1

/-- **The move succeeds** if there is a place for it, it is granted and the package name fits. -/
theorem exists_moved (hstored : Stored d₀ w.disk path la entries) (hwf : w.disk.tree.WellFormed)
    (hes : DirEntries entries s es) (hfork : '/' ∉ c.forkDistName.toList)
    (hscratch : HasScratch w l)
    (hcan : CanMove c s (scratchBase w) es (Zip.delete s.entries entries))
    (hdist : '/' ∉ c.distName.toList) (hname : isDistInfoOf c.distName s.dir = true)
    (hgrants : Grants w path (Zip.delete s.entries entries)) :
    ∃ d, renameDistInfo c native path s w = .ok (c.renamed s.dir) { w with disk := d } ∧
      Stored d₀ d path la (Zip.delete s.entries entries ++ movedEntries (c.renamed s.dir) es) := by
  have hunpacked := hscratch.unpacked hstored hwf
  have hfits : Fits ("/".intercalate (scratchBase w)) := by
    rw [intercalate_scratchBase]
    exact (Disk.fits_of_locate hscratch.1).1
  have hedited := hes.deleted hunpacked rfl
  have hfind := findDistInfo_ok hedited.scratch hfits (hedited.single hes.within hes.ne_nil)
    hes.isDirName hdist hname path
  have hbody :=
    (moveBy_ok (w := { w with disk := w.disk.put l (.dir newDirMode) }) hunpacked hes hfork rfl).2
      ⟨hcan, hgrants.congr rfl rfl, hfind, rfl, rfl⟩
  rw [intercalate_scratchBase] at hbody
  refine ⟨_, ?_, stored_moved hunpacked hes hfork hfits rfl hcan.free⟩
  rw [renameDistInfo_eq, Act.withScratch_ok]
  refine ⟨_, _, Disk.makeDir_new hscratch.1 hscratch.2, hbody, ?_⟩
  rw [intercalate_scratchBase]

end Rebadge.Wheel
