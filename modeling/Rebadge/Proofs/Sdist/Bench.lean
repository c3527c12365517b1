import Rebadge.Proofs.Archiver.Packing
import Rebadge.Proofs.Disk.Opened
import Rebadge.Proofs.Disk.Siblings
import Rebadge.Proofs.Patching

/-!
# What a patch of a source tarball touches

A tarball without links is prepared in the scratch directory, and nothing else changes
(`Bench.keeps_prepare`). Only the packing writes to the tarball (`Bench.working_leaves`). When the
scratch directory is gone, all else on the disk is as it was (`Bench.aside_withScratch`).
-/

namespace Rebadge

namespace Sdist

open Disk (Opening Kept Fits openedBases)
open Act (Keeps leaves)
open Archiver (native)
open Archiver.Native (topNames)

variable {c : Config} {w w' : Workspace} {path rootName : String} {la l : Location}
  {own : List Location} {e : Disk}

/-! ## The workbench -/

/-- The path of a tarball leads to a file, and there is a place for the scratch directory. -/
structure Bench (w : Workspace) (path : String) (la l : Location) : Prop where
  opening : Opening w.disk (Act.scratchPath w) l
  locate : w.disk.locate path true = .ok la
  file : ∃ content m, w.disk.tree.get? la = some (.file content m)

/-- A workspace with the scratch directory, in which only that and certain files may have
changed. -/
structure Working (a : Workspace) (l : Location) (own : List Location) (w : Workspace) : Prop where
  eq : w = { a with disk := w.disk }
  kept : Kept (openedBases (Act.scratchPath a) l) l own (a.disk.opened l) w.disk

/-- The workspace when the scratch directory has been made. -/
def started (w : Workspace) (l : Location) : Workspace := { w with disk := w.disk.opened l }

/-- There is such a place wherever the scratch directory can be made. -/
theorem bench_or_error (hwf : w.disk.tree.WellFormed) (hcwd : Tree.IsPlace w.disk.cwd)
    (hlocate : w.disk.locate path true = .ok la)
    (hfile : ∃ content m, w.disk.tree.get? la = some (.file content m)) :
    (∃ l, Bench w path la l) ∨ ∃ e, w.disk.makeDir (Act.scratchPath w) = .error e := by
  cases hmake : w.disk.makeDir (Act.scratchPath w) with
  | error e => exact Or.inr ⟨e, rfl⟩
  | ok d =>
    obtain ⟨l, hl, hfree, -⟩ := Disk.makeDir_ok hmake
    exact Or.inl ⟨l, ⟨hwf, Path.isBase_join w.tempDir (Disk.isPlain_freshName _), hl, hfree,
      Disk.isPlace_of_locate hcwd hl⟩, hlocate, hfile⟩

theorem Bench.makeDir (h : Bench w path la l) :
    w.disk.makeDir (Act.scratchPath w) = .ok (w.disk.opened l) :=
  Disk.makeDir_new h.opening.locate h.opening.free

theorem Bench.ne_none (h : Bench w path la l) : w.disk.tree.get? la ≠ none := by
  obtain ⟨content, m, hfile⟩ := h.file
  simp [hfile]

theorem Bench.ne_nil (h : Bench w path la l) : la ≠ [] := by
  rintro rfl
  obtain ⟨content, m, hfile⟩ := h.file
  rw [Tree.get?, if_pos rfl] at hfile
  exact absurd hfile (by simp)

theorem Bench.working (h : Bench w path la l) : Working w l [] (started w l) :=
  ⟨rfl, h.opening.kept (by simp)⟩

theorem Bench.owning (h : Bench w path la l) {w₁ : Workspace} (hw : Working w l [] w₁) :
    Working w l [la] w₁ := by
  obtain ⟨content, m, hfile⟩ := h.file
  refine ⟨hw.eq, hw.kept.owning (h.opening.apart h.ne_none) ⟨content, m, ?_⟩⟩
  rw [h.opening.get?_opened_of_some h.ne_none, hfile]

theorem Bench.locate_working (h : Bench w path la l) {w₁ : Workspace} (hw : Working w l own w₁) :
    w₁.disk.locate path true = .ok la :=
  h.opening.locate_kept hw.kept h.locate h.ne_none

/-- Until it is written to it holds what it held. -/
theorem Bench.find_kept (h : Bench w path la l)
    (he : Kept (openedBases (Act.scratchPath w) l) l [] (w.disk.opened l) e) {n : Node}
    (hn : w.disk.tree.get? la = some n) :
    e.find path true = .ok (la, n) :=
  Disk.find_eq (h.opening.locate_kept he h.locate h.ne_none)
    (by rw [h.opening.get?_kept he h.ne_none List.not_mem_nil, hn])

/-! ## Preparing -/

theorem keeps_of_alike {α : Type} {act : Act α}
    (h : Act.Alike (Act.OnDisks w w
      (Disk.Twins (openedBases (Act.scratchPath w) l) l own (w.disk.opened l)
      (w.disk.opened l))) act) : Keeps (Working w l own) act := by
  intro w₁ hw₁
  have hend := (h w₁ w₁ ⟨hw₁.eq, hw₁.eq, rfl, hw₁.kept.twins⟩).leaves
  exact ⟨hend.left, hend.disks.left⟩

theorem keeps_readSources (P : Workspace → Prop) (c : Config) : Keeps P c.readSources := by
  unfold Config.readSources
  refine Act.keeps_mapM fun t _ => ?_
  unfold Config.readSource
  exact Act.keeps_disk.bind fun _ => (Act.keeps_ofExcept _).bind fun _ => Act.keeps_pure _

theorem Bench.keeps_extract (h : Bench w path la l) (hlinks : Site.HasNoLinks w.disk la) :
    Keeps (Working w l []) (Archiver.Native.extractTarball path (Act.scratchPath w)) := by
  refine keeps_of_alike
    (Archiver.Native.alike_extractTarball h.working.kept.isBase (Disk.inner_openedPath _ l)
      (Disk.inner_locationText _ h.opening.ne_nil)
    (fun e e' k n he hfind => Disk.Kept.find_opened he.left hfind)
      (fun e e' he => ?_) fun e e' k content m members he hfind hmembers => ?_)
  · obtain ⟨content, m, hfile⟩ := h.file
    rw [h.find_kept he.left hfile, h.find_kept he.right hfile]
  · obtain ⟨content', m', hfile⟩ := h.file
    rw [h.find_kept he.left hfile] at hfind
    cases hfind
    exact hlinks content m members hfile hmembers

theorem Bench.keeps_editRoot (h : Bench w path la l) (hc : c.IsTame)
    (hslash : '/' ∉ rootName.toList) (hne : rootName ≠ "..") :
    Keeps (Working w l []) (editRoot c path rootName (Path.join (Act.scratchPath w) rootName)) := by
  have hbases := h.working.kept.isBase
  have hroot := (Disk.inner_openedPath (Act.scratchPath w) l).join_name hbases hslash hne
  unfold editRoot
  refine Keeps.bind (keeps_of_alike (alike_checkRoot hroot)) fun _ =>
    Keeps.bind (keeps_of_alike
        (alike_changeRootFile (hroot.join_name hbases (by decide) (by decide)) _)) fun _ =>
    Keeps.bind (keeps_of_alike
        (alike_changeRootFile (hroot.join_name hbases (by decide) (by decide)) _)) fun _ =>
    Keeps.bind_of (keeps_readSources _ c) fun sources w₁ w₂ hsources =>
      keeps_of_alike (Act.alike_forM fun p hp => alike_inject hbases hc hroot ?_ _)
  rw [← (Wheel.readSources_ok.1 hsources).2.names]
  exact List.mem_map_of_mem hp

/-- **Preparing** a tarball changes nothing but the scratch directory. -/
theorem Bench.keeps_prepare (h : Bench w path la l) (hc : c.IsTame)
    (hlinks : Site.HasNoLinks w.disk la) (hslash : '/' ∉ rootName.toList) (hne : rootName ≠ "..") :
    Keeps (Working w l []) (prepare c path (Act.scratchPath w) rootName) := by
  unfold prepare
  exact (h.keeps_extract hlinks).bind fun _ => (h.keeps_editRoot hc hslash hne).bind fun _ =>
    keeps_of_alike (alike_moveRoot h.working.kept.isBase hc.fork
      (Disk.inner_openedPath _ l) hslash hne)

/-! ## Packing -/

theorem Working.put {w₁ : Workspace} (hw : Working w l [la] w₁) (content : Content) (m : Nat) :
    Working w l [la] { w₁ with disk := w₁.disk.put la (.file content m) } :=
  ⟨by rw [hw.eq], hw.kept.put_own (by simp) content m⟩

theorem Bench.createTarball_eq (h : Bench w path la l) {w₁ : Workspace} (hw : Working w l [la] w₁)
    (dirName : String) :
    ∃ m packed, Archiver.Native.packTree (w₁.disk.put la (.file (.tar []) m)) Disk.pathLimit
        (Path.join (Act.scratchPath w) dirName) dirName = packed ∧
      Archiver.Native.createTarball path (Act.scratchPath w) dirName w₁ =
        Act.ofExcept packed.2 { w₁ with disk := w₁.disk.put la (.file (.tar packed.1) m) } := by
  obtain ⟨-, content, m, hfile⟩ := hw.kept.files la (by simp)
  have hempty : w₁.disk.write path (.tar []) = .ok (w₁.disk.put la (.file (.tar []) m)) :=
    Disk.write_ok.2 ⟨la, h.locate_working hw, Or.inr ⟨content, m, hfile, rfl⟩⟩
  exact ⟨m, _, rfl, Archiver.Native.createTarball_eq h.ne_nil hempty
    (h.locate_working (hw.put (.tar []) m)) rfl⟩

/-- **Packing** the directory at the top succeeds if the paths in it fit. -/
theorem Bench.createTarball_ok (h : Bench w path la l) {w₁ : Workspace} (hw : Working w l [la] w₁)
    {dirName : String} (hname : dirName = "" ∨ Path.IsPlain dirName) {m : Nat}
    (hdir : w₁.disk.tree.get? (l ++ topNames dirName) = some (.dir m))
    (hfits : ∀ r, w₁.disk.tree.get? (l ++ topNames dirName ++ r) ≠ none →
      Fits (r.foldl Path.join (Path.join (Act.scratchPath w) dirName))) :
    ∃ nodes mode, Archiver.Native.Lists w₁.disk.tree (l ++ topNames dirName)
      (([], .dir m) :: nodes) ∧
      Archiver.Native.createTarball path (Act.scratchPath w) dirName w₁ = .ok () { w₁ with
        disk := w₁.disk.put la (.file (.tar (Archiver.Native.topMembers dirName m ++
          Archiver.Native.membersOf (topNames dirName) nodes)) mode) } := by
  obtain ⟨mode, packed, hpack, hcreate⟩ := h.createTarball_eq hw dirName
  have hput := hw.put (.tar []) mode
  have hbase : Text.split (Act.scratchPath w) '/' ∈ openedBases (Act.scratchPath w) l := by
    simp [openedBases]
  have hscratch := hput.kept.scratch hbase
  have hget : ∀ r, (w₁.disk.put la (.file (.tar []) mode)).tree.get? (l ++ r) =
      w₁.disk.tree.get? (l ++ r) := by
    intro r
    refine (Tree.get?_put h.ne_nil _ _).trans (if_neg ?_)
    rintro heq
    exact h.opening.apart h.ne_none (heq ▸ List.prefix_append l r)
  have hbelow : ∀ r, (w₁.disk.put la (.file (.tar []) mode)).tree.get?
      (l ++ topNames dirName ++ r) = w₁.disk.tree.get? (l ++ topNames dirName ++ r) := by
    intro r
    rw [List.append_assoc, hget]
  have hpackable : Archiver.Native.Packable (w₁.disk.put la (.file (.tar []) mode))
      (Path.join ("/".intercalate (Text.split (Act.scratchPath w) '/')) dirName)
      (l ++ topNames dirName)
      Disk.pathLimit := by
    refine Archiver.Native.packable_top hscratch hname (by rw [hget, hdir])
      (fun r hr p hp => ?_) fun r hr => ?_
    · rw [List.append_assoc] at hr
      exact hput.kept.clear.plain _ hr p (List.mem_append_right _ hp)
    · rw [Text.intercalate_split]
      exact hfits r (by rwa [← hbelow])
  obtain ⟨nodes, hok, hlists⟩ := Archiver.Native.packTree_ok hpackable hname (by rw [hget, hdir])
  rw [Text.intercalate_split] at hok
  obtain rfl := hpack.symm.trans hok
  refine ⟨nodes, mode, ⟨hlists.nodup, fun r n => ?_⟩, hcreate⟩
  rw [hlists.mem, hbelow]

/-- **All of the work** stays in the scratch directory, but for the tarball. -/
theorem Bench.working_leaves (h : Bench w path la l) (hc : c.IsTame)
    (hlinks : Site.HasNoLinks w.disk la) (hslash : '/' ∉ rootName.toList)
    (hne : rootName ≠ "..") (dirName : String) :
    Working w l [la] (leaves (prepare c path (Act.scratchPath w) rootName >>= fun _ =>
      Archiver.Native.createTarball path (Act.scratchPath w) dirName) (started w l)) := by
  have hprepared := h.keeps_prepare hc hlinks hslash hne _ h.working
  cases hprepare : prepare c path (Act.scratchPath w) rootName (started w l) with
  | error e w₁ =>
    rw [Act.leaves_bind_of_error hprepare]
    rw [Act.leaves_of_error hprepare] at hprepared
    exact h.owning hprepared
  | ok u w₁ =>
    rw [Act.leaves_bind_of_ok hprepare]
    rw [Act.leaves_of_ok hprepare] at hprepared
    obtain ⟨m, packed, -, hcreate⟩ := h.createTarball_eq (h.owning hprepared) dirName
    have hput := (h.owning hprepared).put (.tar packed.1) m
    unfold leaves
    rw [hcreate]
    cases packed.2 <;> exact hput

/-- When the scratch directory is gone, only these files may have changed. -/
theorem Bench.aside_cleared (h : Bench w path la l) {w₁ : Workspace} (hw : Working w l own w₁) :
    Disk.Aside own w.disk (Act.cleared w₁.disk (Act.scratchPath w)) := by
  have hcleared : Act.cleared w₁.disk (Act.scratchPath w) =
      { w₁.disk with tree := w₁.disk.tree.drop l } := by
    unfold Act.cleared
    rw [h.opening.remove hw.kept]
    rfl
  rw [hcleared]
  refine ⟨fun k hk => ?_, hw.kept.cwd⟩
  exact (h.opening.get?_removed hw.kept k).trans (if_neg hk)

theorem Bench.leaves_withScratch (h : Bench w path la l) {α : Type} (body : String → Act α) :
    leaves (Act.withScratch body) w = { leaves (body (Act.scratchPath w)) (started w l) with
      disk := Act.cleared (leaves (body (Act.scratchPath w)) (started w l)).disk
        (Act.scratchPath w) } :=
  Act.leaves_withScratch body h.makeDir

theorem Bench.aside_withScratch (h : Bench w path la l) {body : String → Act Unit}
    (hbody : Working w l own (leaves (body (Act.scratchPath w)) (started w l))) :
    Disk.Aside own w.disk (leaves (Act.withScratch body) w).disk := by
  have haside := h.aside_cleared hbody
  rw [h.leaves_withScratch]
  dsimp only
  exact haside

theorem Bench.find_cleared (h : Bench w path la l) {w₁ : Workspace} (hw : Working w l [la] w₁)
    {n : Node} (hn : w₁.disk.tree.get? la = some n) :
    (Act.cleared w₁.disk (Act.scratchPath w)).find path true = .ok (la, n) := by
  have hcleared : Act.cleared w₁.disk (Act.scratchPath w) =
      { w₁.disk with tree := w₁.disk.tree.drop l } := by
    unfold Act.cleared
    rw [h.opening.remove hw.kept]
    rfl
  have hextends : Tree.Extends w.disk.tree (w₁.disk.tree.drop l) := by
    intro k n hn
    rw [h.opening.get?_removed hw.kept k]
    split
    · exact h.opening.extends hw.kept k n hn
    · exact ⟨n, hn, .refl n⟩
  have hcwd : ({ w₁.disk with tree := w₁.disk.tree.drop l } : Disk).cwd = w.disk.cwd := hw.kept.cwd
  rw [hcleared]
  refine Disk.find_eq (Disk.locate_of_extends hextends hcwd h.locate h.ne_none) ?_
  exact (h.opening.get?_removed hw.kept la).trans ((if_pos (List.mem_singleton_self la)).trans hn)

theorem Bench.withScratch_ok (h : Bench w path la l) {b : String → Act Unit} {w₁ : Workspace}
    (hb : b (Act.scratchPath w) (started w l) = .ok () w₁) :
    Act.withScratch b w = .ok () { w₁ with disk := Act.cleared w₁.disk (Act.scratchPath w) } :=
  Act.withScratch_ok.2 ⟨_, w₁, h.makeDir, hb, rfl⟩

/-! ## A small tarball -/

/-- A fork that replaces one file. -/
def smallConfig : Config :=
  { package := "p", forkPackage := "f", trackedFiles := ["a"], sourceRoot := "src" }

/-- A tarball with the files that each must have. -/
def smallMembers : List (Tar.Member Content) := [
  ⟨"p-1/pyproject.toml", .file (.ofText "name = \"p\"\n"), 0o644⟩,
  ⟨"p-1/PKG-INFO", .file (.ofText "Name: p\n"), 0o644⟩]

/-- A disk with a tarball and a file to put in it. -/
def holding (name : String) (members : List (Tar.Member Content)) : Workspace where
  disk :=
    { tree := ⟨[(["tmp"], .dir 0o755), ([name], .file (.tar members) 0o644), (["src"], .dir 0o755),
      (["src", "a"], .file (.ofText "a") 0o644)]⟩ }

theorem holding_noLinks {name : String} {members : List (Tar.Member Content)}
    (hget : (holding name members).disk.tree.get? [name] = some (.file (.tar members) 0o644))
    (h : ∀ member ∈ members, ∀ target, member.body ≠ .link target) :
    Site.HasNoLinks (holding name members).disk [name] := by
  intro content m members' hfile hmembers
  rw [hget] at hfile
  cases hfile
  cases hmembers
  exact h

end Sdist
end Rebadge
