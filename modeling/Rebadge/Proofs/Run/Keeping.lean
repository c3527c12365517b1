import Rebadge.Proofs.Run.Commuting
import Rebadge.Proofs.Run.Ending

/-!
# What a run makes

A run that succeeds ends with one item for each artifact, in the order of the listing. Artifacts
with different names under the fork, none of which is the name of another artifact, are all there at
the end, each as it was patched (`run_ok`). Artifacts that only differ in what the name under the
fork leaves out take each other's place (`twoLocals_collide`).
-/

namespace Rebadge

open Rebadge.Path (IsPlain)
open Archiver (native)

namespace Batch

variable {b : Batch} {name : String}

/-- What the patch alone makes of an artifact. -/
def made (b : Batch) (name : String) : Option Node :=
  (Act.leaves (Artifact.patchContent b.config native (.ofFilename name) (b.path name))
    b.start).disk.tree.get? (b.download name)

theorem Valid.edited (h : b.Valid) (hname : name ∈ b.names) {d : Disk}
    (hpatch : Artifact.patchContent b.config native (.ofFilename name) (b.path name) b.start =
      .ok () (b.at_ d)) :
    b.Edited name b.start.disk d := by
  have hagree := agree_patchContent h hname (h.ready name) (h.ready name)
  rw [show b.at_ b.start.disk = b.start from rfl, hpatch] at hagree
  cases hagree with
  | ok a hw => exact hw.disks.left

/-- The path under the fork leads to the place of the artifact, if there is a way. -/
theorem Valid.locate_output (h : b.Valid) (hname : name ∈ b.names) {d : Disk}
    (hd : b.site.World d) :
    d.locate (Artifact.forkPath b.config b.config.distDir name) false =
      Disk.joined b.config.distDir b.dist (b.config.renamed name) :=
  (h.leads_of_world hd).locate_join (isPlain_renamed h.tame.fork (h.plain name hname)) false
    (Or.inl rfl)

/-- **A unit that succeeds** leaves what the patch has made where the artifact goes. -/
theorem Valid.output_alone (h : b.Valid) (hname : name ∈ b.names) {item : Patched}
    (hitem : b.result name = .ok item) :
    Disk.joined b.config.distDir b.dist (b.config.renamed name) = .ok (b.output name) ∧
      (b.alone name).tree.get? (b.output name) = b.made name := by
  have hunit : Run.unit (b.settingOf .inOrder) (⟨name, ""⟩, b.path name) b.start =
      .ok item (Act.leaves (b.unit name) b.start) :=
    Act.eq_of_outcome_ok hitem
  obtain ⟨-, d, source, target, n, hpatch, hsource, htarget, -, hmoves⟩ := Run.unit_ok hunit
  have hready := h.ready name
  have hleaves : (Act.leaves (b.unit name) b.start) = b.at_ (b.alone name) :=
    (agree_unit h hname hready hready).leaves.1
  rw [hleaves] at hpatch
  replace hpatch : Artifact.patchContent b.config native (.ofFilename name) (b.path name) b.start =
    .ok () (b.at_ d) := hpatch
  have hholder := (hready.holder h hname).change (h.edited hname hpatch)
  obtain rfl : b.download name = source := Except.ok.inj ((hholder.locate false).symm.trans hsource)
  have hjoined := (h.locate_output hname hholder.world).symm.trans htarget
  obtain rfl : target = b.output name := Disk.joined_ok hjoined
  refine ⟨hjoined, ?_⟩
  have htaken := hmoves.taken []
  rw [List.append_nil, List.append_nil] at htaken
  rw [made, Act.leaves_of_ok hpatch]
  exact htaken

end Batch

namespace Run

variable {s : Setting} {channel : Channel} {w w' : Workspace} {items : List Patched}

/-- The artifacts were found and all downloaded, and nothing is patched yet. -/
def Ready (s : Setting) (channel : Channel) (w : Workspace) (artifacts : List Artifact)
    (w₂ : Workspace) : Prop :=
  ∃ w₀ w₁, Act.makeDirs s.config.distDir w = .ok () w₀ ∧ resolve s channel w₀ = .ok artifacts w₁ ∧
    downloadAll s artifacts w₁ = .ok (placed s artifacts) w₂

/-- The item for an artifact. -/
def itemOf (s : Setting) (a : Artifact) : Patched :=
  ⟨.ofFilename a.filename, a.filename, Artifact.forkPath s.config s.config.distDir a.filename⟩

theorem stages_of_ok (h : run s channel w = .ok items w') :
    ∃ artifacts w₂, Ready s channel w artifacts w₂ ∧
    (∀ a ∈ artifacts, IsPlain a.filename) ∧
    patchAll s (placed s artifacts) w₂ = .ok (items.map .ok) w' := by
  unfold run at h
  obtain ⟨_, w₀, hdir, h⟩ := Act.bind_ok.1 h
  obtain ⟨artifacts, w₁, hresolve, h⟩ := Act.bind_ok.1 h
  obtain ⟨downloaded, w₂, hdownload, h⟩ := Act.bind_ok.1 h
  obtain ⟨results, w₃, hpatch, hend⟩ := Act.bind_ok.1 h
  obtain ⟨rfl, hdownloads⟩ := downloadAll_ok hdownload
  have hplain : ∀ a ∈ artifacts, IsPlain a.filename := fun a ha => by
    obtain ⟨path, w₄, w₅, hone⟩ := hdownloads a ha
    exact (download_ok.1 hone).1
  refine ⟨artifacts, w₂, ⟨w₀, w₁, hdir, hresolve, hdownload⟩, hplain, ?_⟩
  rcases Act.mapM_ofExcept results w₃ with ⟨items', rfl, hitems⟩ | ⟨before, e, after, -, herror⟩
  · obtain ⟨rfl, rfl⟩ := EStateM.Result.ok.inj (hitems.symm.trans hend)
    exact hpatch
  · exact absurd (herror.symm.trans hend) (by simp)

theorem items_eq {artifacts : List Artifact} {w₂ : Workspace}
    (h : patchAll s (placed s artifacts) w₂ = .ok (items.map .ok) w') :
    items = artifacts.map (itemOf s) := by
  rw [patchAll_eq] at h
  obtain ⟨harranged, -⟩ := EStateM.Result.ok.inj h
  have hlength : items.length = artifacts.length := by
    have hlength := congrArg List.length harranged
    rw [length_arranged, placed, List.length_map, List.length_map] at hlength
    exact hlength.symm
  refine List.ext_getElem? fun i => ?_
  by_cases hi : i < artifacts.length
  · have hp : (placed s artifacts)[i]? =
        some (artifacts[i], Path.join s.config.distDir artifacts[i].filename) := by
      rw [placed, List.getElem?_map, List.getElem?_eq_getElem hi]
      rfl
    obtain ⟨n, hn⟩ := exists_turn s (List.getElem?_eq_some_iff.1 hp).1
    have houtcome := (getElem?_arranged (w := w₂) hn hp).2
    rw [harranged, List.getElem?_map, List.getElem?_eq_getElem (hlength ▸ hi), Option.map_some,
      Option.some.injEq] at houtcome
    rw [List.getElem?_eq_getElem (hlength ▸ hi), List.getElem?_map, List.getElem?_eq_getElem hi,
      Option.map_some, Option.some.injEq]
    exact (unit_ok (Act.eq_of_outcome_ok houtcome.symm)).1
  · rw [List.getElem?_eq_none (by omega), List.getElem?_eq_none (by rw [List.length_map]; omega)]

/-- Two items have one path exactly if their artifacts have one name under the fork. -/
theorem nodup_paths {artifacts : List Artifact} (hfork : '/' ∉ s.config.forkDistName.toList)
    (hplain : ∀ a ∈ artifacts, IsPlain a.filename) :
    ((artifacts.map (itemOf s)).map Patched.path).Nodup ↔
      (artifacts.map fun a => s.config.renamed a.filename).Nodup := by
  have hpaths : (artifacts.map (itemOf s)).map Patched.path =
      (artifacts.map fun a => s.config.renamed a.filename).map (Path.join s.config.distDir) := by
    simp only [List.map_map, Function.comp_def, itemOf, Artifact.forkPath]
  rw [hpaths]
  refine ⟨List.Nodup.of_map _, fun h => h.map_on fun x hx y hy heq => ?_⟩
  obtain ⟨a, ha, rfl⟩ := List.mem_map.1 hx
  obtain ⟨b, hb, rfl⟩ := List.mem_map.1 hy
  exact (Path.join_inj _ (isPlain_renamed hfork (hplain a ha))
    (isPlain_renamed hfork (hplain b hb))).1 heq

/-- **What a run makes** that succeeds: an item for each artifact. Their paths are different if the
names under the fork are; and if the artifacts can be patched independently of each other, each path
leads to what the patch alone makes of its artifact. -/
theorem run_ok (h : run s channel w = .ok items w') :
    ∃ artifacts w₂, Ready s channel w artifacts w₂ ∧
    items = artifacts.map (itemOf s) ∧
    ('/' ∉ s.config.forkDistName.toList →
      ((items.map Patched.path).Nodup ↔
        (artifacts.map fun a => s.config.renamed a.filename).Nodup)) ∧
    ∀ dist tempAt, s.archiver = native → Batch.Valid ⟨s.config, artifacts, w₂, dist, tempAt⟩ →
      (items.map Patched.path).Nodup ∧ ∀ a ∈ artifacts,
        w'.disk.locate (Artifact.forkPath s.config s.config.distDir a.filename) false =
          .ok (dist ++ [s.config.renamed a.filename]) ∧
        w'.disk.tree.get? (dist ++ [s.config.renamed a.filename]) =
          Batch.made ⟨s.config, artifacts, w₂, dist, tempAt⟩ a.filename := by
  obtain ⟨artifacts, w₂, hready, hplain, hpatch⟩ := stages_of_ok h
  obtain rfl := items_eq hpatch
  refine ⟨artifacts, w₂, hready, rfl, fun hfork => nodup_paths hfork hplain,
    fun dist tempAt harchiver hvalid => ?_⟩
  let b : Batch := ⟨s.config, artifacts, w₂, dist, tempAt⟩
  obtain ⟨d, hd, hafter⟩ := Batch.Valid.patchAll (b := b) (s := s) hvalid rfl harchiver
  obtain ⟨hresults, rfl⟩ := EStateM.Result.ok.inj (hpatch.symm.trans hd)
  have hresult : ∀ a ∈ artifacts, b.result a.filename = .ok (itemOf s a) := by
    rw [List.map_map, show b.names = artifacts.map Artifact.filename from rfl, List.map_map,
      List.map_inj_left] at hresults
    exact fun a ha => (hresults a ha).symm
  refine ⟨(nodup_paths hvalid.tame.fork hplain).2 ?_, fun a ha => ?_⟩
  · refine (List.Nodup.of_map _ hvalid.nodup).map_on fun x hx y hy heq => ?_
    refine List.inj_on_of_nodup_map hvalid.nodup hx hy ?_
    exact hvalid.forks _ (List.mem_map_of_mem hx) _ (List.mem_map_of_mem hy) heq
  · have hname : a.filename ∈ b.names := List.mem_map_of_mem ha
    obtain ⟨hjoined, hmade⟩ := hvalid.output_alone hname (hresult a ha)
    refine ⟨(hvalid.locate_output hname hafter.world).trans hjoined, ?_⟩
    rw [← hmade]
    exact hafter.finished _ hname _ (List.mem_cons_of_mem _ (List.mem_singleton.2 rfl))

/-! ## Names that collide -/

/-- Two files that differ in the local part of their version. -/
def twoLocals : Setting := forking "<a href=\"p-1.0.0.dev1+a.txt\"><a href=\"p-1.0.0.dev1+b.txt\">"

/-- The content of a file. -/
def textAt (w : Workspace) (l : Location) : Option Bytes :=
  match w.disk.tree.get? l with
  | some (.file c _) => some c.image
  | _ => none

/-- What the items and the file at a location are after a run that succeeds. -/
def finds (r : EStateM.Result Failure Workspace (List Patched)) (l : Location) :
    Option (List Patched × Option Bytes) :=
  match r with
  | .ok items w' => some (items, textAt w' l)
  | .error .. => none

theorem exists_of_finds {act : Act (List Patched)} {l : Location}
    {found : List Patched × Option Bytes} (h : finds (act w) l = some found) :
    ∃ w', act w = .ok found.1 w' ∧ textAt w' l = found.2 := by
  cases hact : act w with
  | ok items w' =>
    rw [hact] at h
    obtain rfl := Option.some.inj h
    exact ⟨w', rfl, rfl⟩
  | error e w' =>
    rw [hact] at h
    exact absurd h (by simp [finds])

theorem run_ok_twoVersions : ∃ artifacts w₂ w', Ready twoVersions .nightly fresh artifacts w₂ ∧
    run twoVersions .nightly fresh = .ok (artifacts.map (itemOf twoVersions)) w' ∧
    ((artifacts.map (itemOf twoVersions)).map Patched.path).Nodup := by
  obtain ⟨w', hrun⟩ := twoVersions_run
  obtain ⟨artifacts, w₂, hready, hitems, -, -⟩ := run_ok hrun
  exact ⟨artifacts, w₂, w', hready, by rw [← hitems]; exact hrun, by rw [← hitems]; decide⟩

set_option maxRecDepth 100000 in
/-- **Two artifacts, one output.** Both are patched, both items name one path, and only one of the
files is there. -/
theorem twoLocals_collide : ∃ w', run twoLocals .nightly fresh =
      .ok [⟨.other, "p-1.0.0.dev1+a.txt", "dist/f-1.0.0.dev1.txt"⟩,
        ⟨.other, "p-1.0.0.dev1+b.txt", "dist/f-1.0.0.dev1.txt"⟩] w' ∧
    textAt w' ["dist", "f-1.0.0.dev1.txt"] = some (utf8 "http://h/p/p-1.0.0.dev1+b.txt") :=
  have hfinds : finds (run twoLocals .nightly fresh) ["dist", "f-1.0.0.dev1.txt"] =
      some ([⟨.other, "p-1.0.0.dev1+a.txt", "dist/f-1.0.0.dev1.txt"⟩,
        ⟨.other, "p-1.0.0.dev1+b.txt", "dist/f-1.0.0.dev1.txt"⟩],
        some (utf8 "http://h/p/p-1.0.0.dev1+b.txt")) := by
    decide +kernel
  exists_of_finds hfinds

end Run
end Rebadge
