import Rebadge.Proofs.Disk.Siblings
import Rebadge.Proofs.Patching

/-!
# Artifacts in one directory

A batch is a number of artifacts in a directory. Patching one and moving it to its name in the fork
looks at the artifact itself and at the place that it is moved to, and changes nothing else
(`agree_unit`). If no artifact is moved to where another one is or goes, a unit therefore ends as it
does alone, whichever units were run before (`After.unit`).
-/

namespace Rebadge

open Rebadge.Path (IsPlain)
open Disk (Aside)
open Act (Alike OnDisks Agree)
open Archiver (native)

/-- Artifacts that were downloaded to one directory. -/
structure Batch where
  config : Config
  artifacts : List Artifact
  /-- The workspace in which nothing is patched yet. -/
  start : Workspace
  /-- Where the directory of the artifacts is. -/
  dist : Location
  /-- Where the directory for scratch directories is. -/
  tempAt : Location

namespace Batch

variable {b : Batch} {name other : String} {d d' e e' o o' : Disk} {done : List String}

/-- The names of the artifacts. -/
def names (b : Batch) : List String := b.artifacts.map Artifact.filename

/-- The path of an artifact. -/
def path (b : Batch) (name : String) : String := Path.join b.config.distDir name

/-- Where an artifact is. -/
def download (b : Batch) (name : String) : Location := b.dist ++ [name]

/-- Where an artifact goes. -/
def output (b : Batch) (name : String) : Location := b.dist ++ [b.config.renamed name]

/-- The places of an artifact. -/
def places (b : Batch) (name : String) : List Location := [b.download name, b.output name]

/-- The places of all artifacts. -/
def own (b : Batch) : List Location := b.names.flatMap b.places

/-- The disk aside from those places. -/
def site (b : Batch) : Site := ⟨b.start.disk, b.own, b.start.tempDir, b.tempAt⟩

/-- The artifacts with their paths. -/
def downloaded (b : Batch) : List (Artifact × String) :=
  b.artifacts.map fun a => (a, b.path a.filename)

/-- Patches an artifact and moves it. -/
def unit (b : Batch) (name : String) : Act Patched :=
  Artifact.patch b.config native name (b.path name) b.config.distDir

/-- The workspace with another disk. -/
def at_ (b : Batch) (d : Disk) : Workspace := { b.start with disk := d }

/-- Artifacts with names of their own, before the fork and under it, that were downloaded to the
directory. -/
structure Separate (b : Batch) : Prop where
  tame : b.config.IsTame
  plain : ∀ name ∈ b.names, IsPlain name
  nodup : b.names.Nodup
  /-- No two artifacts go to one place, and none to where another one is. -/
  forks : ∀ name ∈ b.names, ∀ other ∈ b.names, b.config.renamed name = b.config.renamed other →
    name = other
  clash : ∀ name ∈ b.names, ∀ other ∈ b.names, b.config.renamed name = other → name = other
  found : ∀ name ∈ b.names, b.start.disk.locate (b.path name) false = .ok (b.download name)
  file : ∀ name ∈ b.names, ∃ c m, b.start.disk.tree.get? (b.download name) = some (.file c m)
  noLinks : ∀ name ∈ b.names, ArtifactKind.ofFilename name = .sdist →
    Site.HasNoLinks b.start.disk (b.download name)

/-- Artifacts that can be patched independently of each other. -/
structure Valid (b : Batch) : Prop extends b.Separate where
  wellFormed : b.start.disk.tree.WellFormed
  /-- The directories and the tracked sources are there whatever is at the places of the
  artifacts. -/
  site : b.site.Valid
  leads : (b.start.disk.without b.own).Leads b.config.distDir b.dist
  sources : b.site.HasSources b.config
  /-- The directory at the top of such a tarball would be the one above the scratch directory. -/
  top : ∀ name ∈ b.names, name ≠ "...tar.gz"

theorem mem_own (hname : name ∈ b.names) {k : Location} (hk : k ∈ b.places name) : k ∈ b.own :=
  List.mem_flatMap.2 ⟨name, hname, hk⟩

theorem Separate.apart (h : b.Separate) (hname : name ∈ b.names) (hother : other ∈ b.names)
    (hne : name ≠ other) {k : Location} (hk : k ∈ b.places name) : k ∉ b.places other := by
  have hcancel : ∀ {x y : String}, b.dist ++ [x] = b.dist ++ [y] → x = y :=
    fun heq => by simpa using heq
  simp only [places, download, output, List.mem_cons, List.not_mem_nil, or_false] at hk ⊢
  rintro (rfl | rfl)
  · rcases hk with heq | heq
    · exact hne (hcancel heq).symm
    · exact hne (h.clash name hname other hother (hcancel heq).symm)
  · rcases hk with heq | heq
    · exact hne (h.clash other hother name hname (hcancel heq)).symm
    · exact hne (h.forks name hname other hother (hcancel heq).symm)

/-- Nothing was done to the artifact. -/
structure Ready (b : Batch) (name : String) (d : Disk) : Prop where
  world : b.site.World d
  same : ∀ k ∈ b.places name, d.tree.get? k = b.start.disk.tree.get? k

theorem Valid.ready (h : b.Valid) (name : String) : b.Ready name b.start.disk :=
  ⟨⟨.refl _ _, h.wellFormed⟩, fun _ _ => rfl⟩

theorem Valid.leads_of_world (h : b.Valid) (hd : b.site.World d) :
    d.Leads b.config.distDir b.dist :=
  (hd.holds h.site).leads h.leads

theorem Ready.file (hd : b.Ready name d) (h : b.Valid) (hname : name ∈ b.names) :
    ∃ c m, d.tree.get? (b.download name) = some (.file c m) := by
  rw [hd.same _ (by simp [places])]
  exact h.file name hname

theorem Ready.holder (hd : b.Ready name d) (h : b.Valid) (hname : name ∈ b.names) :
    b.site.Holder (b.path name) (b.download name) d := by
  have hplain := h.plain name hname
  have hjoined : Disk.joined b.config.distDir b.dist name = .ok (b.download name) := by
    rw [← (h.leads_of_world (h.ready name).world).locate_join hplain false (Or.inl rfl)]
    exact h.found name hname
  obtain ⟨c, m, hfile⟩ := hd.file h hname
  refine ⟨hd.world, mem_own hname (by simp [places]), fun f => ?_, c, m, hfile⟩
  rw [← hjoined]
  refine (h.leads_of_world hd.world).locate_join hplain f (Or.inr fun target hlink => ?_)
  rw [download] at hfile
  rw [hfile] at hlink
  exact absurd hlink (by simp)

/-! ## One artifact -/

/-- What keeps the artifact from being moved. -/
def obstacle (b : Batch) (name : String) : Option IoError :=
  match Disk.joined b.config.distDir b.dist (b.config.renamed name) with
  | .error x => some x
  | .ok _ =>
    if name = b.config.renamed name then none
    else if (b.start.disk.tree.get? (b.output name)).any Node.isDir then some (.os .isADirectory)
    else none

/-- The disk with the artifact moved. -/
def relocate (b : Batch) (name : String) (d : Disk) : Disk :=
  if name = b.config.renamed name then d
    else { d with tree := d.tree.move (b.download name) (b.output name) }

/-- Only the artifact itself was changed. -/
abbrev Edited (b : Batch) (name : String) (d e : Disk) : Prop := Site.Changed (b.download name) d e

theorem Ready.output (hd : b.Ready name d) (he : b.Edited name d e)
    (hne : name ≠ b.config.renamed name) :
    e.tree.get? (b.output name) = b.start.disk.tree.get? (b.output name) := by
  rw [he.aside.same _ (by simpa [download, Batch.output] using Ne.symm hne)]
  exact hd.same _ (by simp [places])

/-- **How a patched artifact is moved.** -/
theorem Ready.rename (hd : b.Ready name d) (h : b.Valid) (hname : name ∈ b.names)
    (he : b.Edited name d e) :
    e.rename (b.path name) (Artifact.forkPath b.config b.config.distDir name) =
      match b.obstacle name with
      | some x => .error x
      | none => .ok (b.relocate name e) := by
  have hplain := h.plain name hname
  have hrenamed := isPlain_renamed h.tame.fork hplain
  have hholder := (hd.holder h hname).change he
  have hsource := hholder.locate false
  have htarget := (h.leads_of_world hholder.world).locate_join hrenamed false (Or.inl rfl)
  obtain ⟨c, m, hfile⟩ := hholder.file
  unfold obstacle relocate
  cases hjoined : Disk.joined b.config.distDir b.dist (b.config.renamed name) with
  | error x =>
    rw [hjoined] at htarget
    unfold Disk.rename
    rw [hsource, show e.locate (Artifact.forkPath b.config b.config.distDir name) false =
      .error x from htarget]
    rfl
  | ok k =>
    rw [hjoined, Disk.joined_ok hjoined] at htarget
    refine (Disk.rename_sibling hplain hrenamed hsource htarget hfile).trans ?_
    by_cases hsame : name = b.config.renamed name
    · simp only [if_pos hsame]
    · simp only [if_neg hsame]
      rw [show e.tree.get? (b.dist ++ [b.config.renamed name]) = _ from hd.output he hsame]
      unfold Batch.output
      split <;> rfl

/-- The unit changes nothing but the places of its artifact. -/
structure Moved (b : Batch) (name : String) (d e : Disk) : Prop where
  aside : Aside (b.places name) d e
  wellFormed : e.tree.WellFormed

theorem Ready.edited (hd : b.Ready name d) (h : b.Valid) (hname : name ∈ b.names)
    (he : b.Edited name d e) : b.Moved name d e :=
  ⟨he.aside.mono (by simp [places]), ((hd.holder h hname).change he).world.wellFormed⟩

theorem Ready.get?_relocate (hd : b.Ready name d) (h : b.Valid) (hname : name ∈ b.names)
    (he : b.Edited name d e) (hfree : b.obstacle name = none) : b.Moved name d (b.relocate name e) ∧
      (b.relocate name e).tree.get? (b.output name) = e.tree.get? (b.download name) ∧
      (name ≠ b.config.renamed name → (b.relocate name e).tree.get? (b.download name) = none) := by
  have hmoved := hd.edited h hname he
  unfold relocate
  by_cases hsame : name = b.config.renamed name
  · rw [if_pos hsame]
    refine ⟨hmoved, ?_, fun hne => absurd hsame hne⟩
    rw [Batch.output, ← hsame, download]
  · rw [if_neg hsame]
    obtain ⟨c, m, hfile⟩ := he.file
    have hdir : ∀ m, e.tree.get? (b.output name) ≠ some (.dir m) := by
      intro m hm
      rw [hd.output he hsame] at hm
      unfold obstacle at hfree
      split at hfree
      · exact absurd hfree (by simp)
      · rw [if_neg hsame, hm] at hfree
        exact absurd hfree (by simp [Node.isDir])
    have hsource : b.download name ≠ [] := by simp [download]
    have htarget : b.output name ≠ [] := by simp [Batch.output]
    have hget := Tree.get?_moveFile hmoved.wellFormed hsource htarget hfile hdir
    refine ⟨⟨⟨fun k hk => ?_, hmoved.aside.cwd⟩, hmoved.wellFormed.moveSibling hfile hdir⟩, ?_,
      fun _ => ?_⟩
    · simp only [places, List.mem_cons, List.not_mem_nil, or_false, not_or] at hk
      show (e.tree.move _ _).get? k = _
      rw [hget, if_neg hk.2, if_neg hk.1]
      exact he.aside.same k (by simpa using hk.1)
    · show (e.tree.move _ _).get? _ = _
      rw [hget, if_pos rfl, hfile]
    · show (e.tree.move _ _).get? _ = _
      rw [hget, if_neg (by simpa [download, Batch.output] using hsame), if_pos rfl]

/-- On two disks the unit does the same. -/
structure Alongside (b : Batch) (name : String) (d d' e e' : Disk) : Prop where
  left : b.Moved name d e
  right : b.Moved name d' e'
  same : ∀ k ∈ b.places name, e.tree.get? k = e'.tree.get? k

theorem agree_patchContent (h : b.Valid) (hname : name ∈ b.names) (hd : b.Ready name d)
    (hd' : b.Ready name d') :
    Agree (OnDisks b.start b.start (Site.Pair (b.download name) d d'))
      (Artifact.patchContent b.config native (.ofFilename name) (b.path name) (b.at_ d))
      (Artifact.patchContent b.config native (.ofFilename name) (b.path name) (b.at_ d')) := by
  have htogether : b.site.Together (b.path name) (b.download name) d d' :=
    ⟨h.site, hd.holder h hname, hd'.holder h hname⟩
  have hsame : d.tree.get? (b.download name) = d'.tree.get? (b.download name) := by
    rw [hd.same _ (by simp [places]), hd'.same _ (by simp [places])]
  have hpair : OnDisks b.start b.start (Site.Pair (b.download name) d d') (b.at_ d) (b.at_ d') :=
    ⟨rfl, rfl, rfl, ⟨⟨.refl _ _, hd.file h hname⟩, ⟨.refl _ _, hd'.file h hname⟩, hsame⟩⟩
  cases hkind : ArtifactKind.ofFilename name with
  | wheel => exact Site.alike_patchWheel htogether rfl rfl h.tame.fork h.sources _ _ hpair
  | sdist =>
    have htogether' : b.site.Together (b.path name) (b.download name)
      (b.at_ d).disk (b.at_ d').disk := htogether
    refine Site.agree_patchSdist htogether' hpair rfl rfl h.tame h.sources ?_ ?_
    · intro hroot
      obtain ⟨file, hfile, hlist⟩ := Sdist.exists_fileName hroot
      rw [path, Path.fileName?_join _ (h.plain name hname), Option.some.injEq] at hfile
      refine h.top name hname ?_
      rw [hfile, ← String.toList_inj, hlist]
      rfl
    · intro content m members hget
      refine h.noLinks name hname hkind content m members ?_
      rw [← hget]
      exact (hd.same _ (by simp [places])).symm
  | other => exact Act.alike_pure () _ _ hpair

/-- **One artifact** is patched and moved alike on all disks on which nothing was done to it. -/
theorem agree_unit (h : b.Valid) (hname : name ∈ b.names) (hd : b.Ready name d)
    (hd' : b.Ready name d') :
    Agree (OnDisks b.start b.start (b.Alongside name d d')) (b.unit name (b.at_ d))
    (b.unit name (b.at_ d')) := by
  unfold unit Artifact.patch
  have hstay : ∀ {e e'}, Site.Pair (b.download name) d d' e e' → b.Alongside name d d' e e' := by
    intro e e' he
    refine ⟨hd.edited h hname he.left, hd'.edited h hname he.right, fun k hk => ?_⟩
    by_cases hdown : k = b.download name
    · rw [hdown, he.same]
    · rw [he.left.aside.same k (by simpa using hdown), he.right.aside.same k (by simpa using hdown),
      hd.same k hk, hd'.same k hk]
  refine (agree_patchContent h hname hd hd').bind_of (fun w w' hw => hw.mono (hstay hw.disks))
    fun _ w w' hw _ => ?_
  let move : Disk → Except IoError Disk :=
    (·.rename (b.path name) (Artifact.forkPath b.config b.config.distDir name))
  have hleft : move w.disk = _ := hd.rename h hname hw.disks.left
  have hright : move w'.disk = _ := hd'.rename h hname hw.disks.right
  cases hobstacle : b.obstacle name with
  | some x =>
    rw [hobstacle] at hleft hright
    rw [Act.bind_of_error (Act.change_of_error (f := move) hleft),
      Act.bind_of_error (Act.change_of_error (f := move) hright)]
    exact .error _ (hw.mono (hstay hw.disks))
  | none =>
    rw [hobstacle] at hleft hright
    rw [Act.bind_of_ok (Act.change_of_ok (f := move) hleft),
      Act.bind_of_ok (Act.change_of_ok (f := move) hright)]
    obtain ⟨hmoved, htarget, hsource⟩ := hd.get?_relocate h hname hw.disks.left hobstacle
    obtain ⟨hmoved', htarget', hsource'⟩ := hd'.get?_relocate h hname hw.disks.right hobstacle
    have hend : b.Alongside name d d' (b.relocate name w.disk) (b.relocate name w'.disk) := by
      refine ⟨hmoved, hmoved', fun k hk => ?_⟩
      by_cases hout : k = b.output name
      · rw [hout, htarget, htarget', hw.disks.same]
      · obtain rfl : k = b.download name := by simpa [places, hout] using hk
        have hne : name ≠ b.config.renamed name :=
          fun heq => hout (by rw [download, Batch.output, ← heq])
        rw [hsource hne, hsource' hne]
    exact .ok _ (hw.set hend)

/-! ## One after another -/

/-- How the unit of an artifact ends if no other one was run. -/
def result (b : Batch) (name : String) : Except Failure Patched := Act.outcome (b.unit name) b.start

/-- The disk that it leaves then. -/
def alone (b : Batch) (name : String) : Disk := (Act.leaves (b.unit name) b.start).disk

/-- Some units were run. -/
structure After (b : Batch) (done : List String) (d : Disk) : Prop where
  world : b.site.World d
  finished : ∀ name ∈ done, ∀ k ∈ b.places name, d.tree.get? k = (b.alone name).tree.get? k
  waiting : ∀ name ∈ b.names, name ∉ done → b.Ready name d

theorem Valid.after_nil (h : b.Valid) : b.After [] b.start.disk :=
  ⟨(h.ready "").world, by simp, fun name _ _ => h.ready name⟩

/-- **The next unit** ends as it does alone, and so do its places. -/
theorem After.unit (hd : b.After done d) (h : b.Valid) (hdone : done ⊆ b.names)
    (hname : name ∈ b.names) (hnew : name ∉ done) :
    Act.outcome (b.unit name) (b.at_ d) = b.result name ∧
      ∃ e, Act.leaves (b.unit name) (b.at_ d) = b.at_ e ∧ b.After (name :: done) e := by
  have hagree := agree_unit h hname (hd.waiting name hname hnew) (h.ready name)
  obtain ⟨hleaves, -, -, halong⟩ := hagree.leaves
  refine ⟨hagree.outcome_eq, _, hleaves, ?_⟩
  have hplaces : ∀ {n}, n ∈ b.names → ∀ k ∈ b.places n, k ∈ b.own := fun hn k hk => mem_own hn hk
  have hother : ∀ {n}, n ∈ b.names → n ≠ name → ∀ k ∈ b.places n,
      (Act.leaves (b.unit name) (b.at_ d)).disk.tree.get? k = d.tree.get? k :=
    fun hn hne k hk => halong.left.aside.same k (h.toSeparate.apart hn hname hne hk)
  have hworld : b.site.World (Act.leaves (b.unit name) (b.at_ d)).disk :=
    ⟨hd.world.aside.trans (halong.left.aside.mono fun k hk => hplaces hname k hk),
      halong.left.wellFormed⟩
  refine ⟨hworld, fun n hn k hk => ?_, fun n hn hnot => ⟨hworld, fun k hk => ?_⟩⟩
  · rcases List.mem_cons.1 hn with rfl | hold
    · exact halong.same k hk
    · rw [hother (hdone hold) (fun heq => hnew (heq ▸ hold)) k hk]
      exact hd.finished n hold k hk
  · rw [List.mem_cons, not_or] at hnot
    rw [hother hn hnot.1 k hk]
    exact (hd.waiting n hn hnot.2).same k hk

/-- **All units**, in any order. -/
theorem After.units (h : b.Valid) {order : List String} (hd : b.After done d)
    (hdone : done ⊆ b.names) (horder : order ⊆ b.names) (hnodup : order.Nodup)
    (hnew : ∀ name ∈ order, name ∉ done) :
    Act.outcomes b.unit order (b.at_ d) = order.map b.result ∧
      ∃ e, Act.leavesAll b.unit order (b.at_ d) = b.at_ e ∧ b.After (order.reverse ++ done) e := by
  induction order generalizing done d with
  | nil => exact ⟨rfl, d, rfl, hd⟩
  | cons name order ih =>
    obtain ⟨hname, horder⟩ := List.cons_subset.1 horder
    obtain ⟨hfirst, hnodup⟩ := List.nodup_cons.1 hnodup
    obtain ⟨houtcome, e, hleaves, he⟩ := hd.unit h hdone hname (hnew name (by simp))
    obtain ⟨hrest, e', hleaves', he'⟩ :=
      ih he (List.cons_subset.2 ⟨hname, hdone⟩) horder hnodup fun n hn => by
        rw [List.mem_cons, not_or]
        exact ⟨by rintro rfl; exact hfirst hn, hnew n (by simp [hn])⟩
    refine ⟨?_, e', ?_, by simpa using he'⟩
    · rw [Act.outcomes, houtcome, hleaves, hrest, List.map_cons]
    · rw [Act.leavesAll, List.foldl_cons, hleaves]
      exact hleaves'

end Batch
end Rebadge
