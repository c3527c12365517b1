import Rebadge.Proofs.Archiver.TwinTarballs
import Rebadge.Proofs.Name
import Rebadge.Proofs.Sdist.Steps

/-!
# Preparing a tarball on twin disks

What is prepared in the scratch directory depends on what is there and on the sources only, and
stays there (`alike_prepare`).
-/

namespace Rebadge.Sdist

open Rebadge.Path (IsPlain IsBase isIdle)
open Disk (Inner Twins)
open Act (Alike OnDisks)

variable {a a' : Workspace} {bases : List (List String)} {l : Location} {own : List Location}
  {o o' : Disk} {c : Config} {sdist scratch root rootName name : String}

theorem alike_checkRoot (hroot : Inner bases root) :
    Alike (OnDisks a a' (Twins bases l own o o')) (checkRoot sdist rootName root) := by
  unfold checkRoot
  refine Act.alike_disk_bind (fun d d' hd => by rw [hd.isDir hroot]) fun _ _ _ => ?_
  exact Act.alike_ite (fun _ => Act.alike_throw _) fun _ => Act.alike_pure ()

theorem alike_readRootFile (hp : Inner bases (Path.join root name)) :
    Alike (OnDisks a a' (Twins bases l own o o')) (readRootFile sdist root name) := by
  unfold readRootFile
  refine Act.alike_disk_bind (fun d d' hd => by rw [hd.readText hp]) fun d _ _ => ?_
  split
  · exact Act.alike_pure _
  · exact Act.alike_throw _
  · exact Act.alike_throw _

theorem alike_changeRootFile (hp : Inner bases (Path.join root name)) (change : String → String) :
    Alike (OnDisks a a' (Twins bases l own o o')) (changeRootFile sdist root name change) := by
  unfold changeRootFile
  exact (alike_readRootFile hp).bind fun text => Act.alike_change fun _ _ hd => hd.write hp _

theorem inner_target (hbases : ∀ base ∈ bases, IsBase base) (hc : c.IsTame)
    (hroot : Inner bases root) {tracked : String} (htracked : tracked ∈ c.trackedFiles) :
    Inner bases (injectionTarget c root tracked) ∧
      ∃ above, Path.parent? (injectionTarget c root tracked) = some above ∧ Inner bases above := by
  obtain ⟨hrel, hstays, p, hp, hne, hcurrent⟩ := hc.tracked tracked htracked
  obtain ⟨names, hdir⟩ := hroot.join hbases hc.sourceDir.1 (Tree.stays_of_not_mem hc.sourceDir.2)
  obtain ⟨front, htarget⟩ := hdir.join hbases hrel (Tree.stays_of_not_mem hstays)
  exact ⟨⟨_, htarget⟩,
    htarget.parent hbases ⟨p, List.mem_append_right _ hp, by simp [isIdle, hne, hcurrent]⟩⟩

theorem alike_inject (hbases : ∀ base ∈ bases, IsBase base) (hc : c.IsTame)
    (hroot : Inner bases root) {tracked : String} (htracked : tracked ∈ c.trackedFiles)
    (content : Content) :
    Alike (OnDisks a a' (Twins bases l own o o')) (inject c root tracked content) := by
  obtain ⟨htarget, above, habove, hinner⟩ := inner_target hbases hc hroot htracked
  have hparents : Act.makeParents (injectionTarget c root tracked) = Act.makeDirs above := by
    unfold Act.makeParents
    rw [habove]
  unfold inject
  simp only [hparents]
  exact (Act.alike_makeDirs fun _ _ hd => hd.ensureDirs hinner).bind fun _ =>
    Act.alike_change fun _ _ hd => hd.write htarget _

/-- **Edits** of the directory at the top. -/
theorem alike_editRoot (hbases : ∀ base ∈ bases, IsBase base) (hc : c.IsTame)
    (hroot : Inner bases root) (hread : Alike (OnDisks a a' (Twins bases l own o o')) c.readSources)
    (hnames : ∀ w w' sources, c.readSources w = .ok sources w' →
      ∀ p ∈ sources, p.1 ∈ c.trackedFiles) :
    Alike (OnDisks a a' (Twins bases l own o o')) (editRoot c sdist rootName root) := by
  have hfile : ∀ {name : String}, IsPlain name → Inner bases (Path.join root name) :=
    fun hname => hroot.join_name hbases hname.slash hname.ne_parent
  unfold editRoot
  refine (alike_checkRoot hroot).bind fun _ => ?_
  refine (alike_changeRootFile (hfile ⟨by decide, by decide, by decide, by decide⟩) _).bind fun _ =>
    ?_
  refine (alike_changeRootFile (hfile ⟨by decide, by decide, by decide, by decide⟩) _).bind fun _ =>
    ?_
  refine hread.bind_of fun sources _ _ _ _ hok => ?_
  exact Act.alike_forM fun p hp => alike_inject hbases hc hroot (hnames _ _ _ hok p hp) p.2

/-- **The new name** is one in the scratch directory. -/
theorem alike_moveRoot (hbases : ∀ base ∈ bases, IsBase base) (hfork : '/' ∉ c.forkDistName.toList)
    (hscratch : Inner bases scratch) (hslash : '/' ∉ rootName.toList) (hne : rootName ≠ "..") :
    Alike (OnDisks a a' (Twins bases l own o o')) (moveRoot c scratch rootName) := by
  unfold moveRoot
  refine Act.alike_change fun _ _ hd => hd.rename (hscratch.join_name hbases hslash hne) ?_
  exact hscratch.join_name hbases (slash_renamed hfork hslash) fun h =>
    hne (eq_of_renamed_eq (by decide) (by decide) h)

end Rebadge.Sdist
