import Rebadge.Patch
import Rebadge.Proofs.Scratching
import Rebadge.Proofs.Sdist.Twins
import Rebadge.Proofs.Wheel.Passes
import Rebadge.Proofs.Wheel.Twins

/-!
# Patches that end alike

A patch looks at its artifact, at the tracked sources and at its scratch directory only. On two
disks that hold the same artifact and agree aside from files that are none of the sources, it ends
alike and makes the same artifact (`Site.alike_patchWheel`, `Site.agree_patchSdist`).
-/

namespace Rebadge

open Disk (Holds Twins)
open Act (Alike OnDisks)
open Archiver (native)
open Archiver.Native (Holding)

namespace Site

/-- The sources are there whatever is at the site's own locations. -/
def HasSources (s : Site) (c : Config) : Prop :=
  ∀ t ∈ c.trackedFiles, ∃ k n, (s.disk.without s.own).find (c.trackedSource t) true = .ok (k, n)

end Site

namespace Site

variable {s : Site} {c : Config} {a a' : Workspace} {d d' o o' : Disk}
  {la : Location} {archive : String} {R : Disk → Disk → Prop}

/-! ## The sources -/

theorem alike_readSources (hsources : s.HasSources c)
    (hR : ∀ d d', R d d' → Holds (s.disk.without s.own) d ∧ Holds (s.disk.without s.own) d') :
    Alike (OnDisks a a' R) c.readSources := by
  unfold Config.readSources
  refine Act.alike_mapM fun t ht => ?_
  unfold Config.readSource
  refine Act.alike_disk_bind (fun d d' hd => ?_) fun d d' hd => (Act.alike_ofExcept _).bind fun _ =>
    Act.alike_pure _
  obtain ⟨k, n, hfind⟩ := hsources t ht
  have hread : d.read (c.trackedSource t) = d'.read (c.trackedSource t) := by
    unfold Disk.read
    rw [(hR d d' hd).1.find hfind, (hR d d' hd).2.find hfind]
  rw [hread]

/-! ## Wheels -/

theorem alike_verify (h : Holding R archive la) (paths : List String) :
    Alike (OnDisks a a' R) (Wheel.verify archive paths) := by
  unfold Wheel.verify Wheel.scan
  refine (h.openZip.bind fun _ => Act.alike_ofExcept _).bind fun scan =>
    h.openZip.bind fun entries => ?_
  refine (Act.alike_ofExcept _).bind fun defects => ?_
  cases defects with
  | nil => exact Act.alike_pure ()
  | cons x rest => exact Act.alike_throw _

theorem alike_renameDistInfo (h : s.Together archive la o o') (ha : a.tempDir = s.temp)
    (ha' : a'.tempDir = s.temp) (hfork : '/' ∉ c.forkDistName.toList)
    {entries : List (Zip.Entry Content)} {scan : Wheel.Scan}
    (hscan : Wheel.scanEntries archive entries = .ok scan) :
    Alike (OnDisks a a' (Pair la o o')) (Wheel.renameDistInfo c native archive scan) := by
  rw [Wheel.renameDistInfo_eq]
  refine alike_withScratch h ha ha' fun d d' hd => ?_
  exact Wheel.alike_moveBy (isBase_of_mem hd.valid) s.inner_path hd.holding hfork fun name hname =>
    Wheel.exists_name_of_mem hscan hname

theorem alike_patchWheel (h : s.Together archive la o o') (ha : a.tempDir = s.temp)
    (ha' : a'.tempDir = s.temp) (hfork : '/' ∉ c.forkDistName.toList) (hsources : s.HasSources c) :
    Alike (OnDisks a a' (Pair la o o')) (Wheel.patch c native archive) := by
  have hholding := h.holding
  have hscan : Alike (OnDisks a a' (Pair la o o')) (Wheel.scan archive) := by
    unfold Wheel.scan
    exact hholding.openZip.bind fun _ => Act.alike_ofExcept _
  unfold Wheel.patch
  refine hscan.bind_of fun scan _ _ _ _ hok => ?_
  obtain ⟨-, entries, -, hentries⟩ := Wheel.scan_ok.1 hok
  refine (alike_readSources hsources fun _ _ hd => h.holds hd).bind fun sources => ?_
  refine (hholding.replaceEntry _ _).bind fun _ => (hholding.replaceEntry _ _).bind fun _ => ?_
  refine (Act.alike_forM fun p _ => hholding.replaceEntry _ _).bind fun _ => ?_
  exact (alike_renameDistInfo h ha ha' hfork hentries).bind fun dir => alike_verify hholding _

/-! ## Source tarballs -/

/-- The tarball holds no links. -/
def HasNoLinks (d : Disk) (la : Location) : Prop :=
  ∀ content m members, d.tree.get? la = some (.file content m) → content.tarMembers = .ok members →
    ∀ member ∈ members, ∀ target, member.body ≠ .link target

/-- Disks on which the archive has not changed either. -/
abbrev Prepared (s : Site) (d d' : Disk) : Disk → Disk → Prop :=
  Twins s.bases s.scratch [] (s.opened d) (s.opened d')

theorem Scratching.owned (h : s.Scratching archive la d d')
    (hsame : d.tree.get? la = d'.tree.get? la) {e e' : Disk} (he : s.Prepared d d' e e') :
    s.Scratched la d d' e e' := by
  have htwins := h.twins hsame
  exact he.owning (htwins.left.apart la (by simp))
    (htwins.left.files la (by simp)).1 (htwins.same la (by simp))

theorem Scratching.prepared (h : s.Scratching archive la d d')
    (hsame : d.tree.get? la = d'.tree.get? la) : s.Prepared d d' (s.opened d) (s.opened d') := by
  have htwins := h.twins hsame
  have hkept : ∀ {o : Disk}, Disk.Kept s.bases s.scratch [la] o o →
      Disk.Kept s.bases s.scratch [] o o :=
    fun hk => ⟨hk.reach, hk.clear, by simp, by simp, fun _ _ _ => rfl, rfl⟩
  exact ⟨hkept htwins.left, hkept htwins.right, fun k hk => htwins.same k (hk.imp_right (by simp))⟩

/-- **What is prepared** in a scratch directory. -/
theorem alike_prepare (h : s.Scratching archive la d d') (hsame : d.tree.get? la = d'.tree.get? la)
    (hc : c.IsTame) (hsources : s.HasSources c) (hlinks : HasNoLinks d la) {rootName : String}
    (hslash : '/' ∉ rootName.toList) (hne : rootName ≠ "..") :
    Alike (OnDisks a a' (s.Prepared d d')) (Sdist.prepare c archive s.path rootName) := by
  have hbases := isBase_of_mem h.valid
  unfold Sdist.prepare
  refine (Archiver.Native.alike_extractTarball hbases s.inner_path s.inner_locationText
    (fun e e' k n he hfind => Disk.Kept.find_opened he.left hfind)
    (fun e e' he => h.holding.find (h.owned hsame he) true)
    fun e e' k content m members he hfind hmembers => ?_).bind
    fun _ => ?_
  · obtain ⟨hlocate, hget⟩ := Disk.find_ok.1 hfind
    rw [(h.holding.locate _ _ (h.owned hsame he) true).1, Except.ok.injEq] at hlocate
    subst hlocate
    refine hlinks content m members ?_ hmembers
    rwa [(h.left.opening h.valid h.locate).get?_kept he.left h.left.ne_none List.not_mem_nil]
    at hget
  refine (Sdist.alike_editRoot hbases hc (s.inner_path.join_name hbases hslash hne)
    (alike_readSources hsources fun _ _ he => h.holds (h.owned hsame he))
    fun w w' sources hok p hp => ?_).bind fun _ => ?_
  · rw [← (Wheel.readSources_ok.1 hok).2.names]
    exact List.mem_map_of_mem hp
  · exact Sdist.alike_moveRoot hbases hc.fork s.inner_path hslash hne

theorem agree_patchSdist {w w' : Workspace} (h : s.Together archive la w.disk w'.disk)
    (hpair : OnDisks a a' (Pair la w.disk w'.disk) w w') (ha : a.tempDir = s.temp)
    (ha' : a'.tempDir = s.temp) (hc : c.IsTame) (hsources : s.HasSources c)
    (hroot : Sdist.rootName? archive ≠ some "..") (hlinks : HasNoLinks w.disk la) :
    Act.Agree (OnDisks a a' (Pair la w.disk w'.disk)) (Sdist.patch c native archive w)
      (Sdist.patch c native archive w') := by
  have hsame := hpair.disks.same
  cases hname : Sdist.rootName? archive with
  | none =>
    rw [Sdist.patch_none c native hname]
    exact Act.alike_throw _ _ _ hpair
  | some rootName =>
    have hslash := Sdist.slash_rootName hname
    have hne : rootName ≠ ".." := by
      rintro rfl
      exact hroot hname
    rw [Sdist.patch_some c hname]
    refine agree_withScratch h ha ha' hpair fun hd => ?_
    have hprepare : Act.Agree (OnDisks a a' (s.Prepared w.disk w'.disk)) _ _ :=
      alike_prepare hd hsame hc hsources hlinks hslash hne _ _ (hpair.set (hd.prepared hsame))
    refine hprepare.bind_of (fun e e' he => he.mono (hd.owned hsame he.disks)) fun _ e e' he _ => ?_
    refine Archiver.Native.alike_createTarball ?_ hd.holding _ _ (he.mono (hd.owned hsame he.disks))
    exact s.inner_path.join_name (isBase_of_mem h.valid) (slash_renamed hc.fork hslash)
      fun heq => hne (eq_of_renamed_eq (by decide) (by decide) heq)

end Site
end Rebadge
