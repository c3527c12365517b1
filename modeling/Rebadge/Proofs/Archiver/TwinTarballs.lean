import Rebadge.Proofs.Alike
import Rebadge.Proofs.Archiver.Twins
import Rebadge.Sdist

/-!
# Tarballs on twin disks

A tarball without links is unpacked below a directory in the same way on two disks that are the same
there (`alike_extractTarball`), and a directory below it is packed in the same way
(`packTree_congr`).
-/

namespace Rebadge.Archiver.Native

open Rebadge.Path (IsPlain IsBase)
open Disk (Inner Twins)
open Act (Alike OnDisks)

variable {a a' : Workspace} {bases : List (List String)} {l la : Location}
  {own : List Location} {o o' d d' : Disk} {dest path name : String} {names : List String}

/-! ## Unpacking -/

theorem isPlain_of_memberNames? (h : memberNames? path = some names) : ∀ p ∈ names, IsPlain p := by
  suffices hmem : ∀ p ∈ names, .normal p ∈ Path.components path from
    fun p hp => Path.isPlain_of_mem_components (hmem p hp)
  unfold memberNames? at h
  generalize Path.components path = parts at h ⊢
  induction parts generalizing names with
  | nil =>
    rw [List.foldr_nil, Option.some.injEq] at h
    rw [← h]
    simp
  | cons part parts ih =>
    rw [List.foldr_cons] at h
    split at h
    · exact absurd h (by simp)
    · exact fun p hp => List.mem_cons_of_mem _ (ih h p hp)
    · exact fun p hp => List.mem_cons_of_mem _ (ih h p hp)
    · exact absurd h (by simp)
    · next name more hmore =>
      rw [← Option.some.inj h]
      intro p hp
      rcases List.mem_cons.1 hp with rfl | hp
      · exact List.mem_cons_self
      · exact List.mem_cons_of_mem _ (ih hmore p hp)

theorem checkInside_congr (h : Twins bases l own o o' d d') (hdest : Inner bases dest)
    (hp : Inner bases path) : checkInside d dest path = checkInside d' dest path := by
  unfold checkInside canonical
  rw [(h.find hp true).1, (h.find hdest true).1]

theorem alike_reporting {Q : Workspace → Workspace → Prop} {α : Type} {act : Act α}
    (h : Alike Q act) (e : IoError) : Alike Q (reporting e act) := by
  unfold reporting
  refine h.attempt.bind fun x => ?_
  cases x with
  | ok b => exact Act.alike_pure b
  | error f =>
    cases f with
    | io x => exact Act.alike_throw _
    | _ => exact Act.alike_throw _

theorem alike_makeLeading (hbases : ∀ base ∈ bases, IsBase base) (hdest : Inner bases dest)
    (hnames : ∀ p ∈ names, IsPlain p) {dir : String} (hdir : Inner bases dir) :
    Alike (OnDisks a a' (Twins bases l own o o')) (makeLeading dest dir names) := by
  induction names generalizing dir with
  | nil => exact Act.alike_pure ()
  | cons name rest ih =>
    obtain ⟨hname, hrest⟩ := List.forall_mem_cons.1 hnames
    have hpath := hdir.join_name hbases hname.slash hname.ne_parent
    rw [makeLeading]
    refine Act.alike_disk_bind (fun d d' hd => by rw [(hd.find hpath false).1]) fun d _ _ => ?_
    refine Act.alike_ite (fun _ => ?_) fun _ => ih hrest hpath
    refine (Act.alike_look fun d d' hd => checkInside_congr hd hdest hdir).bind fun _ => ?_
    exact (Act.alike_makeDirs fun _ _ hd => hd.ensureDirs hpath).bind fun _ => ih hrest hpath

theorem alike_makeMember (hp : Inner bases path) {m : Tar.Member Content}
    (hm : ∀ target, m.body ≠ .link target) :
    Alike (OnDisks a a' (Twins bases l own o o')) (makeMember path m) := by
  unfold makeMember
  cases hbody : m.body with
  | link target => exact absurd hbody (hm target)
  | dir =>
    have hmake : Alike (OnDisks a a' (Twins bases l own o o')) _ :=
      Act.alike_outcome fun _ _ hd => hd.ensureDir hp
    have hmode : Alike (OnDisks a a' (Twins bases l own o o')) _ :=
      Act.alike_change fun _ _ hd => hd.setMode hp (permissions m.mode)
    have hboth := hmake.bind fun _ => hmode
    simp only [bind_assoc] at hboth
    exact hboth
  | file data =>
    refine Act.alike_disk_bind (fun d d' hd => by rw [(hd.find hp false).1]) fun d _ _ => ?_
    have hcreate : Alike (OnDisks a a' (Twins bases l own o o')) _ :=
      Act.alike_change fun _ _ hd => hd.create hp (n := .file data (permissions m.mode)) (by simp)
    exact Act.alike_ite (fun _ => (Act.alike_change fun _ _ hd => hd.unlink hp).bind fun _ =>
      hcreate) fun _ => hcreate

theorem alike_unpackMember (hbases : ∀ base ∈ bases, IsBase base) (hdest : Inner bases dest)
    {m : Tar.Member Content} (hm : ∀ target, m.body ≠ .link target) :
    Alike (OnDisks a a' (Twins bases l own o o')) (unpackMember dest m) := by
  unfold unpackMember
  cases hnames : memberNames? m.path with
  | none => exact Act.alike_pure ()
  | some names =>
    cases names with
    | nil => exact Act.alike_pure ()
    | cons name rest =>
      have hplain := isPlain_of_memberNames? hnames
      have hleading : ∀ p ∈ (name :: rest).dropLast, IsPlain p :=
        fun p hp => hplain p (List.dropLast_subset _ hp)
      have hparts : ∀ {parts : List String}, (∀ p ∈ parts, IsPlain p) →
          Inner bases (parts.foldl Path.join dest) :=
        fun hparts => hdest.foldl_join hbases fun p hp =>
          ⟨(hparts p hp).slash, (hparts p hp).ne_parent⟩
      refine (alike_reporting (alike_makeLeading hbases hdest hleading hdest) _).bind fun _ => ?_
      refine (Act.alike_look fun d d' hd => checkInside_congr hd hdest (hparts hleading)).bind
        fun _ => ?_
      exact alike_reporting (alike_makeMember (hparts hplain) hm) _

/-- Unpacks what the path of a tarball leads to, where the destination is there. -/
def unpackInto (dest : String) (n : Node) : Act Unit := do
  let top :=
    match (← Act.disk).find dest true with
    | .ok (l, _) => locationText l
    | .error _ => dest
  match n with
  | .file c _ => do
    let members ← Act.ofExcept (c.tarMembers.mapError .io)
    (unpackOrder members).forM (unpackMember top)
  | _ => throw (.io .unreadableTarball)

theorem mem_of_mem_unpackOrder {members : List (Tar.Member Content)} {m : Tar.Member Content}
    (h : m ∈ unpackOrder members) : m ∈ members := by
  unfold unpackOrder at h
  rw [List.mem_append, Sorted.mem_sort] at h
  rcases h with h | h
  · exact (List.mem_filter.1 h).1
  · exact (List.mem_filter.1 h).1

theorem alike_unpackInto (hbases : ∀ base ∈ bases, IsBase base) (hdest : Inner bases dest)
    (htop : Inner bases (locationText l))
    (hself : ∀ d d' k n, Twins bases l own o o' d d' → d.find dest true = .ok (k, n) → k = l)
    {n : Node} (hlinks : ∀ c m members, n = .file c m → c.tarMembers = .ok members →
      ∀ member ∈ members, ∀ target, member.body ≠ .link target) :
    Alike (OnDisks a a' (Twins bases l own o o')) (unpackInto dest n) := by
  unfold unpackInto
  refine Act.alike_disk_bind (fun d d' hd => by rw [(hd.find hdest true).1]) fun d d' hd => ?_
  cases n with
  | dir m => exact Act.alike_throw _
  | link target => exact Act.alike_throw _
  | file c m =>
    refine (Act.alike_ofExcept _).bind_of fun members _ _ _ _ hmembers => ?_
    have hnone := hlinks c m members rfl (except_mapError_ok.1 (Act.ofExcept_ok.1 hmembers).1)
    refine Act.alike_forM fun member hmember => ?_
    refine alike_unpackMember hbases ?_ (hnone member (mem_of_mem_unpackOrder hmember))
    split
    · next k n hfind =>
      rw [hself d d' k n hd hfind]
      exact htop
    · exact hdest

/-- **Unpacking** a tarball without links. -/
theorem alike_extractTarball (hbases : ∀ base ∈ bases, IsBase base) (hdest : Inner bases dest)
    (htop : Inner bases (locationText l))
    (hself : ∀ d d' k n, Twins bases l own o o' d d' → d.find dest true = .ok (k, n) → k = l)
    (hfind : ∀ d d', Twins bases l own o o' d d' → d.find path true = d'.find path true)
    (hlinks : ∀ d d' k c m members, Twins bases l own o o' d d' →
      d.find path true = .ok (k, .file c m) →
      c.tarMembers = .ok members → ∀ member ∈ members, ∀ target, member.body ≠ .link target) :
    Alike (OnDisks a a' (Twins bases l own o o')) (extractTarball path dest) := by
  unfold extractTarball
  refine (Act.alike_look hfind).bind_of fun p w w' w₁ hw hp => ?_
  obtain ⟨k, n⟩ := p
  have hrest : Alike (OnDisks a a' (Twins bases l own o o')) (unpackInto dest n) := by
    refine alike_unpackInto hbases hdest htop hself fun c m members hn hmembers => ?_
    exact hlinks _ _ k c m members hw.disks (hn ▸ (Act.look_ok.1 hp).1) hmembers
  refine Act.alike_disk_bind (fun d d' hd => by rw [(hd.find hdest false).1]) fun d _ _ => ?_
  refine Act.alike_ite (fun _ => ?_) fun _ => hrest
  exact (alike_reporting (Act.alike_makeDirs fun _ _ hd => hd.ensureDirs hdest) _).bind fun _ =>
    hrest

/-! ## Packing -/

theorem packTree_congr (h : Twins bases l own o o' d d') (hp : Inner bases path)
    (depth : Nat) (name : String) : packTree d depth path name = packTree d' depth path name := by
  induction depth generalizing path name with
  | zero => rfl
  | succ depth ih =>
    have hdirectory : packDirectory d path name = packDirectory d' path name := by
      unfold packDirectory
      rw [(h.find hp true).1]
    rw [packTree, packTree, ← h.list hp]
    cases hlist : d.list path with
    | error e => rfl
    | ok names =>
      simp only [← hdirectory]
      refine List.foldl_ext _ _ _ fun done child hchild => ?_
      obtain ⟨k, mode, hfind, rfl⟩ := Disk.list_ok.1 hlist
      obtain ⟨r, rfl⟩ := ((h.find hp true).2 k _ hfind).1.below
      have hget : d.tree.get? (l ++ r ++ [child]) ≠ none := Tree.mem_names_iff.1 hchild
      rw [List.append_assoc] at hget
      have hplain := h.left.clear.plain (r ++ [child]) hget child (by simp)
      have hinner := hp.join_name h.left.isBase hplain.slash hplain.ne_parent
      have hfile : packFile d (Path.join path child) (Path.join name child) =
          packFile d' (Path.join path child) (Path.join name child) := by
        unfold packFile
        rw [(h.find hinner true).1]
      rw [← h.isDir hinner, ← ih hinner, hfile]

theorem alike_createTarball {base dirName : String} (hp : Inner bases (Path.join base dirName))
    (h : Holding (Twins bases l own o o') path la) :
    Alike (OnDisks a a' (Twins bases l own o o')) (createTarball path base dirName) := by
  unfold createTarball
  refine (Act.alike_change fun _ _ hd => h.write hd _).bind fun _ => ?_
  refine Act.alike_disk_bind (fun d d' hd => ?_) fun d d' hd => ?_
  · simp only [packTree_congr hd hp]
  · exact (Act.alike_change fun _ _ hd => h.write hd _).bind fun _ => Act.alike_ofExcept _

end Rebadge.Archiver.Native
