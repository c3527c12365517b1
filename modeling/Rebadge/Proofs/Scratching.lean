import Rebadge.Proofs.Archiver.Twins
import Rebadge.Proofs.Disk.Aside
import Rebadge.Proofs.Disk.Opened

/-!
# Working in a scratch directory

On all disks that agree aside from certain files the same scratch directory is made. Two runs of an
act in it, of which one file may differ beforehand in what else is on the disks, end alike if the
act does so on twin disks; afterwards the scratch directory is gone, and at most that file has
changed (`agree_withScratch`).
-/

namespace Rebadge

open Rebadge.Path (IsPlain IsBase)
open Rebadge.Tree (IsName Around Clear)
open Disk (Aside Holds Reaches Kept Twins Inner)
open Act (Alike OnDisks Agree)
open Archiver.Native (Holding)

/-! ## Where the work is done -/

/-- A disk with certain locations that others may change, and the directory for scratch
directories. -/
structure Site where
  disk : Disk
  own : List Location
  temp : String
  tempAt : Location

namespace Site

/-- The directory is there whatever is at the locations, and they are no scratch directories. -/
structure Valid (s : Site) : Prop where
  root : [] ∉ s.own
  temp : s.temp ≠ ""
  leads : (s.disk.without s.own).Leads s.temp s.tempAt
  names : ∀ p ∈ s.tempAt, IsName p ∧ '/' ∉ p.toList
  scratch : ∀ n, s.tempAt ++ [Disk.scratchName n] ∉ s.own

/-- A disk that differs at those locations only. -/
structure World (s : Site) (d : Disk) : Prop where
  aside : Aside s.own s.disk d
  wellFormed : d.tree.WellFormed

/-- The name of the scratch directory. -/
def fresh (s : Site) : String := Disk.freshName (s.disk.tree.names s.tempAt)

/-- Its path. -/
def path (s : Site) : String := Path.join s.temp s.fresh

/-- Its location. -/
def scratch (s : Site) : Location := s.tempAt ++ [s.fresh]

/-- The pieces of the paths that lead to it: its own, and the absolute one. -/
def bases (s : Site) : List (List String) := [Text.split s.path '/', "" :: s.scratch]

variable {s : Site} {d d' o o' e e' : Disk} {la : Location}

theorem isPlain_fresh (s : Site) : IsPlain s.fresh := Disk.isPlain_freshName _

theorem World.holds (hs : s.Valid) (h : s.World d) : Holds (s.disk.without s.own) d :=
  h.aside.holds hs.root

theorem World.leads (hs : s.Valid) (h : s.World d) : d.Leads s.temp s.tempAt :=
  (h.holds hs).leads hs.leads

theorem World.free (hs : s.Valid) (h : s.World d) : d.tree.get? s.scratch = none := by
  obtain ⟨n, heq, hfree, -⟩ := Disk.freshName_eq (s.disk.tree.names s.tempAt)
  have hlocation : s.scratch = s.tempAt ++ [Disk.scratchName n] := by
    unfold scratch fresh
    rw [heq]
  rw [hlocation, h.aside.same _ (hs.scratch n)]
  exact Decidable.byContradiction fun hsome => hfree (Tree.mem_names_iff.2 hsome)

theorem World.path_eq (hs : s.Valid) {w : Workspace} (h : s.World w.disk)
    (htemp : w.tempDir = s.temp) : Act.scratchPath w = s.path := by
  obtain ⟨m, hdir⟩ := (h.leads hs).dir
  have hlocate := (h.leads hs).locate
  rw [if_neg hs.temp] at hlocate
  have hlist : w.disk.list s.temp = .ok (w.disk.tree.names s.tempAt) :=
    Disk.list_ok.2 ⟨_, m, Disk.find_eq hlocate hdir, rfl⟩
  have hfresh : Disk.freshName (w.disk.tree.names s.tempAt) = s.fresh := by
    refine Disk.freshName_congr fun n => ?_
    rw [Tree.mem_names_iff, Tree.mem_names_iff, h.aside.same _ (hs.scratch n)]
  unfold Act.scratchPath path
  rw [htemp, hlist, ← hfresh]
  rfl

theorem World.locate (hs : s.Valid) (h : s.World d) :
    d.locate s.path false = Disk.joined s.temp s.tempAt s.fresh :=
  (h.leads hs).locate_join s.isPlain_fresh false (Or.inl rfl)

/-! ## The scratch directory -/

theorem isBase_of_mem (hs : s.Valid) : ∀ base ∈ s.bases, IsBase base := by
  intro base hbase
  rcases List.mem_cons.1 hbase with rfl | hbase
  · exact Path.isBase_join s.temp s.isPlain_fresh
  · rw [List.mem_singleton.1 hbase]
    refine ⟨fun p hp => ?_, "" :: s.tempAt, s.fresh, rfl, s.isPlain_fresh.ne_empty,
      s.isPlain_fresh.ne_current⟩
    rcases List.mem_cons.1 hp with rfl | hp
    · simp
    rcases List.mem_append.1 hp with hp | hp
    · exact (hs.names p hp).2
    · rw [List.mem_singleton.1 hp]
      exact s.isPlain_fresh.slash

theorem inner_path (s : Site) : Inner s.bases s.path := Disk.inner_openedPath s.path s.scratch

theorem inner_locationText (s : Site) : Inner s.bases (Archiver.Native.locationText s.scratch) :=
  Disk.inner_locationText s.path (by simp [scratch])

/-- The disk with the scratch directory. -/
def opened (s : Site) (d : Disk) : Disk := d.put s.scratch (.dir Disk.newDirMode)

theorem get?_opened (s : Site) (d : Disk) (k : Location) :
    (s.opened d).tree.get? k = if k = s.scratch then some (.dir Disk.newDirMode)
    else d.tree.get? k :=
  Tree.get?_put (by simp [scratch]) _ k

/-! ## Twin disks in it -/

/-- One file, which the site's own path of an archive leads to. -/
structure Holder (s : Site) (archive : String) (la : Location) (o : Disk) : Prop where
  world : s.World o
  mem : la ∈ s.own
  locate : ∀ f, o.locate archive f = .ok la
  file : ∃ c m, o.tree.get? la = some (.file c m)

/-- The content of that file may have changed. -/
structure Changed (la : Location) (o d : Disk) : Prop where
  aside : Aside [la] o d
  file : ∃ c m, d.tree.get? la = some (.file c m)

variable {archive : String}

theorem Holder.change (h : s.Holder archive la o) (hd : Changed la o d) :
    s.Holder archive la d := by
  have hget : ∀ k, k ≠ la → d.tree.get? k = o.tree.get? k :=
    fun k hk => hd.aside.same k (by simpa using hk)
  obtain ⟨c, m, hfile⟩ := h.file
  obtain ⟨c', m', hfile'⟩ := hd.file
  have hext : Tree.Extends o.tree d.tree := by
    intro k n hn
    by_cases hk : k = la
    · rw [hk, hfile, Option.some.injEq] at hn
      exact ⟨_, hk ▸ hfile', hn ▸ .file ..⟩
    · exact ⟨n, by rw [hget k hk, hn], .refl n⟩
  refine ⟨⟨h.world.aside.trans (hd.aside.mono (by simpa using h.mem)), fun k r hr hsome => ?_⟩,
    h.mem, fun f => ?_, hd.file⟩
  · have hold : ∃ m, o.tree.get? k = some (.dir m) := by
      refine h.world.wellFormed k r hr ?_
      by_cases hk : k ++ r = la
      · rw [hk, hfile]
        simp
      · rwa [← hget _ hk]
    obtain ⟨m, hm⟩ := hold
    refine ⟨m, ?_⟩
    rw [hget, hm]
    rintro rfl
    rw [hfile] at hm
    exact absurd hm (by simp)
  · exact Disk.locate_of_extends hext hd.aside.cwd (h.locate f) (by simp [hfile])

theorem Holder.ne_nil (h : s.Holder archive la o) : la ≠ [] := by
  rintro rfl
  obtain ⟨c, m, hfile⟩ := h.file
  rw [Tree.get?, if_pos rfl] at hfile
  exact absurd hfile (by simp)

theorem Holder.ne_none (h : s.Holder archive la o) : o.tree.get? la ≠ none := by
  obtain ⟨c, m, hfile⟩ := h.file
  simp [hfile]

/-- The scratch directory is made at a free place. -/
theorem Holder.opening (hs : s.Valid) (h : s.Holder archive la d)
    (hlocate : d.locate s.path false = .ok s.scratch) : Disk.Opening d s.path s.scratch where
  wellFormed := h.world.wellFormed
  isBase := isBase_of_mem hs _ (by simp [bases])
  locate := hlocate
  free := h.world.free hs
  isPlace := by
    have hsize : s.fresh.utf8ByteSize ≤ Tree.maxNameSize := by
      obtain ⟨front, hsplit, -⟩ := Path.split_join s.temp s.isPlain_fresh.slash
      refine (Disk.fits_of_locate hlocate).1.names s.fresh ?_
      unfold path
      rw [hsplit]
      simp
    have hplain := s.isPlain_fresh
    exact Tree.IsPlace.concat hs.names ⟨hplain.ne_empty, hplain.ne_current, hplain.ne_parent, hsize⟩
      hplain.slash

theorem kept_opened (hs : s.Valid) (h : s.Holder archive la d)
    (hlocate : d.locate s.path false = .ok s.scratch) :
    Kept s.bases s.scratch [la] (s.opened d) (s.opened d) :=
  (h.opening hs hlocate).kept fun k hk => by
    rw [List.mem_singleton.1 hk]
    exact h.file

theorem holds_kept (hs : s.Valid) (h : s.Holder archive la d)
    (hlocate : d.locate s.path false = .ok s.scratch)
    (he : Kept s.bases s.scratch [la] (s.opened d) e) : Holds (s.disk.without s.own) e := by
  refine ⟨fun k n hn => ?_, he.cwd.trans h.world.aside.cwd⟩
  have hown : k ∉ s.own := by
    intro hk
    rw [Disk.get?_without hs.root, if_pos hk] at hn
    exact absurd hn (by simp)
  have hget := (h.world.holds hs).node k n hn
  rw [(h.opening hs hlocate).get?_kept he (by simp [hget]), hget]
  rw [List.mem_singleton]
  rintro rfl
  exact hown h.mem

theorem cleared_kept (hs : s.Valid) (h : s.Holder archive la d)
    (hlocate : d.locate s.path false = .ok s.scratch)
    (he : Kept s.bases s.scratch [la] (s.opened d) e) :
    Changed la d (Act.cleared e s.path) ∧ (Act.cleared e s.path).tree.get? la = e.tree.get? la := by
  have hopening := h.opening hs hlocate
  have hcleared : Act.cleared e s.path = { e with tree := e.tree.drop s.scratch } := by
    unfold Act.cleared
    rw [hopening.remove he]
    rfl
  have hget : ∀ k, (Act.cleared e s.path).tree.get? k = if k ∈ [la] then e.tree.get? k
      else d.tree.get? k := by
    rw [hcleared]
    exact hopening.get?_removed he
  have hla : (Act.cleared e s.path).tree.get? la = e.tree.get? la := by rw [hget, if_pos (by simp)]
  refine ⟨⟨⟨fun k hk => by rw [hget, if_neg hk], ?_⟩, ?_⟩, hla⟩
  · rw [hcleared]
    exact he.cwd
  · rw [hla]
    exact (he.files la (by simp)).2

/-! ## Two runs -/

/-- Two disks are others but for the content of the file, which is the same on both. -/
structure Pair (la : Location) (o o' d d' : Disk) : Prop where
  left : Changed la o d
  right : Changed la o' d'
  same : d.tree.get? la = d'.tree.get? la

/-- The work is done on two disks that hold the file. -/
structure Together (s : Site) (archive : String) (la : Location) (o o' : Disk) : Prop where
  valid : s.Valid
  left : s.Holder archive la o
  right : s.Holder archive la o'

theorem Together.holding (h : s.Together archive la o o') : Holding (Pair la o o') archive la where
  cwd := fun d d' hd =>
    (h.left.change hd.left).world.aside.cwd.trans (h.right.change hd.right).world.aside.cwd.symm
  locate := fun d d' hd f => ⟨(h.left.change hd.left).locate f, (h.right.change hd.right).locate f⟩
  file := by
    intro d d' hd
    obtain ⟨c, m, hfile⟩ := hd.left.file
    exact ⟨c, m, hfile, hd.same ▸ hfile⟩
  put := by
    intro d d' hd c m
    have hget : ∀ (t : Tree) k, (t.put la (.file c m)).get? k = if k = la then some (.file c m)
        else t.get? k :=
      fun t => Tree.get?_put h.left.ne_nil _
    have hput : ∀ {o d : Disk}, Changed la o d → Changed la o (d.put la (.file c m)) := by
      intro o d hd
      refine ⟨⟨fun k hk => ?_, hd.aside.cwd⟩, c, m, ?_⟩
      · show (d.tree.put la _).get? k = _
        rw [hget, if_neg (by simpa using hk), hd.aside.same k hk]
      · show (d.tree.put la _).get? la = _
        rw [hget, if_pos rfl]
    refine ⟨hput hd.left, hput hd.right, ?_⟩
    show (d.tree.put la _).get? la = (d'.tree.put la _).get? la
    rw [hget, hget, if_pos rfl, if_pos rfl]

theorem Together.holds (h : s.Together archive la o o') (hd : Pair la o o' d d') :
    Holds (s.disk.without s.own) d ∧ Holds (s.disk.without s.own) d' :=
  ⟨(h.left.change hd.left).world.holds h.valid, (h.right.change hd.right).world.holds h.valid⟩

/-- Two disks in which scratch directories were made. -/
structure Scratching (s : Site) (archive : String) (la : Location) (d d' : Disk) : Prop extends
    s.Together archive la d d' where
  locate : d.locate s.path false = .ok s.scratch
  locate' : d'.locate s.path false = .ok s.scratch

/-- The disks with the scratch directories, and those that come of them. -/
abbrev Scratched (s : Site) (la : Location) (d d' : Disk) : Disk → Disk → Prop :=
  Twins s.bases s.scratch [la] (s.opened d) (s.opened d')

theorem Scratching.holding (h : s.Scratching archive la d d') :
    Holding (s.Scratched la d d') archive la where
  cwd := fun e e' he => (he.left.cwd.trans h.left.world.aside.cwd).trans
    (he.right.cwd.trans h.right.world.aside.cwd).symm
  locate := fun e e' he f =>
    ⟨(h.left.opening h.valid h.locate).locate_kept he.left (h.left.locate f) h.left.ne_none,
      (h.right.opening h.valid h.locate').locate_kept he.right (h.right.locate f) h.right.ne_none⟩
  file := by
    intro e e' he
    obtain ⟨-, c, m, hfile⟩ := he.left.files la (by simp)
    exact ⟨c, m, hfile, he.same la (by simp) ▸ hfile⟩
  put := fun e e' he c m => he.put_own (by simp) c m

theorem Scratching.holds (h : s.Scratching archive la d d') (he : s.Scratched la d d' e e') :
    Holds (s.disk.without s.own) e ∧ Holds (s.disk.without s.own) e' :=
  ⟨holds_kept h.valid h.left h.locate he.left, holds_kept h.valid h.right h.locate' he.right⟩

variable {a a' : Workspace} {α : Type} {body : String → Act α}

theorem Scratching.twins (h : s.Scratching archive la d d')
    (hsame : d.tree.get? la = d'.tree.get? la) :
    s.Scratched la d d' (s.opened d) (s.opened d') := by
  refine ⟨kept_opened h.valid h.left h.locate, kept_opened h.valid h.right h.locate',
    fun k hk => ?_⟩
  rw [get?_opened, get?_opened]
  by_cases heq : k = s.scratch
  · rw [if_pos heq, if_pos heq]
  rw [if_neg heq, if_neg heq]
  rcases hk with ⟨r, rfl⟩ | hk
  · rw [Disk.get?_append_of_free h.left.world.wellFormed (h.left.world.free h.valid),
      Disk.get?_append_of_free h.right.world.wellFormed (h.right.world.free h.valid)]
  · rwa [List.mem_singleton.1 hk]

/-- **In a scratch directory.** An act that ends alike in the new directory does so with the
directory removed. -/
theorem agree_withScratch (h : s.Together archive la o o') (ha : a.tempDir = s.temp)
    (ha' : a'.tempDir = s.temp) {w w' : Workspace} (hw : OnDisks a a' (Pair la o o') w w')
    (hbody : s.Scratching archive la w.disk w'.disk →
      Agree (OnDisks a a' (s.Scratched la w.disk w'.disk))
      (body s.path { w with disk := s.opened w.disk })
        (body s.path { w' with disk := s.opened w'.disk })) :
    Agree (OnDisks a a' (Pair la o o')) (Act.withScratch body w) (Act.withScratch body w') := by
  have hpair := hw.disks
  have hleft := h.left.change hpair.left
  have hright := h.right.change hpair.right
  have hpath := hleft.world.path_eq h.valid (w := w) (by rw [hw.left]; exact ha)
  have hpath' := hright.world.path_eq h.valid (w := w') (by rw [hw.right]; exact ha')
  have hlocate := hleft.world.locate h.valid
  have hlocate' := hright.world.locate h.valid
  cases hjoined : Disk.joined s.temp s.tempAt s.fresh with
  | error e =>
    rw [hjoined] at hlocate hlocate'
    rw [Act.withScratch_of_error body (hpath.symm ▸ Disk.makeDir_error hlocate),
      Act.withScratch_of_error body (hpath'.symm ▸ Disk.makeDir_error hlocate')]
    exact .error _ hw
  | ok k =>
    have hk : k = s.scratch := Disk.joined_ok hjoined
    rw [hjoined, hk] at hlocate hlocate'
    rw [Act.withScratch_of_ok body
      (hpath.symm ▸ Disk.makeDir_new hlocate (hleft.world.free h.valid)), Act.withScratch_of_ok body
      (hpath'.symm ▸ Disk.makeDir_new hlocate' (hright.world.free h.valid)), hpath, hpath']
    have hpair' : ∀ {e e' : Disk}, s.Scratched la w.disk w'.disk e e' →
        Pair la o o' (Act.cleared e s.path) (Act.cleared e' s.path) := by
      intro e e' he
      have hcleared := cleared_kept h.valid hleft hlocate he.left
      have hcleared' := cleared_kept h.valid hright hlocate' he.right
      refine ⟨⟨hpair.left.aside.trans hcleared.1.aside, hcleared.1.file⟩,
        ⟨hpair.right.aside.trans hcleared'.1.aside, hcleared'.1.file⟩, ?_⟩
      rw [hcleared.2, hcleared'.2]
      exact he.same la (by simp)
    have hagree := hbody ⟨⟨h.valid, hleft, hright⟩, hlocate, hlocate'⟩
    change Agree _ (Act.closed s.path (body s.path { w with disk := s.opened w.disk }))
      (Act.closed s.path (body s.path { w' with disk := s.opened w'.disk }))
    generalize body s.path { w with disk := s.opened w.disk } = r at hagree ⊢
    generalize body s.path { w' with disk := s.opened w'.disk } = r' at hagree ⊢
    cases hagree with
    | ok b hend => exact .ok b (hend.set (hpair' hend.disks))
    | error e hend => exact .error e (hend.set (hpair' hend.disks))

theorem alike_withScratch (h : s.Together archive la o o') (ha : a.tempDir = s.temp)
    (ha' : a'.tempDir = s.temp) (hbody : ∀ d d', s.Scratching archive la d d' →
      Alike (OnDisks a a' (s.Scratched la d d')) (body s.path)) :
    Alike (OnDisks a a' (Pair la o o')) (Act.withScratch body) :=
  fun _ _ hw => agree_withScratch h ha ha' hw fun hd =>
    hbody _ _ hd _ _ (hw.set (hd.twins hw.disks.same))

end Site
end Rebadge
