import Rebadge.Proofs.Archiver.Packing
import Rebadge.Proofs.Archiver.TarballLayout

/-!
# Links in tarballs

Packing follows links, so that a tarball that was packed has no members for links
(`packTree_linkFree`). Unpacking a tarball without such members makes no links
(`keeps_extractTarball`).
-/

namespace Rebadge

namespace Tree

variable {t t' t'' : Tree} {l k : Location} {n m : Node}

/-! ## Trees without more links -/

/-- All links of the second tree are in the first one. -/
def LinksFrom (t t' : Tree) : Prop :=
  ∀ k target, t'.get? k = some (.link target) → t.get? k = some (.link target)

theorem LinksFrom.refl (t : Tree) : LinksFrom t t := fun _ _ h => h

theorem LinksFrom.trans (h : LinksFrom t t') (h' : LinksFrom t' t'') : LinksFrom t t'' :=
  fun k target hk => h k target (h' k target hk)

theorem linksFrom_put (t : Tree) (l : Location) (hn : ∀ target, n ≠ .link target) :
    LinksFrom t (t.put l n) := by
  intro k target hk
  by_cases hnil : k = []
  · rw [hnil, get?, if_pos rfl] at hk
    exact absurd hk (by simp)
  · unfold get? at hk ⊢
    rw [if_neg hnil] at hk ⊢
    rw [put, nodeAt_putNode] at hk
    split at hk
    · exact absurd (Option.some.inj hk) (hn target)
    · exact hk

theorem linksFrom_drop (t : Tree) (l : Location) : LinksFrom t (t.drop l) := by
  intro k target hk
  by_cases hnil : k = []
  · rw [hnil, get?, if_pos rfl] at hk
    exact absurd hk (by simp)
  · unfold get? at hk ⊢
    rw [if_neg hnil] at hk ⊢
    have hfilter := nodeAt_filter (fun j => !l.isPrefixOf j) k t.nodes
    rw [drop, hfilter] at hk
    split at hk
    · exact hk
    · exact absurd hk (by simp)

end Tree

namespace Disk

open Rebadge.Tree (LinksFrom linksFrom_put linksFrom_drop)

variable {d d' : Disk} {path : String} {c : Content} {n : Node} {mode : Nat}

theorem write_linksFrom (h : d.write path c = .ok d') : LinksFrom d.tree d'.tree := by
  obtain ⟨k, -, ⟨-, -, rfl⟩ | ⟨c', mode, -, rfl⟩⟩ := write_ok.1 h
  · exact linksFrom_put d.tree k (by simp)
  · exact linksFrom_put d.tree k (by simp)

theorem makeDir_linksFrom (h : d.makeDir path = .ok d') : LinksFrom d.tree d'.tree := by
  obtain ⟨k, -, -, rfl⟩ := makeDir_ok h
  exact linksFrom_put d.tree k (by simp)

theorem create_linksFrom (h : d.create path n = .ok d') (hn : ∀ target, n ≠ .link target) :
    LinksFrom d.tree d'.tree := by
  obtain ⟨k, -, h⟩ := except_bind_ok.1 h
  split at h
  · exact absurd h (by simp)
  · rw [← Except.ok.inj h]
    exact linksFrom_put d.tree k hn

theorem unlink_linksFrom (h : d.unlink path = .ok d') : LinksFrom d.tree d'.tree := by
  obtain ⟨⟨k, n⟩, -, h⟩ := except_bind_ok.1 h
  cases n with
  | dir m => exact absurd h (by simp)
  | file c m => exact Except.ok.inj h ▸ linksFrom_drop d.tree k
  | link target => exact Except.ok.inj h ▸ linksFrom_drop d.tree k

theorem setMode_linksFrom (h : d.setMode path mode = .ok d') : LinksFrom d.tree d'.tree := by
  obtain ⟨⟨k, n⟩, -, h⟩ := except_bind_ok.1 h
  cases n with
  | dir m =>
    dsimp only at h
    split at h
    · exact Except.ok.inj h ▸ .refl _
    · exact Except.ok.inj h ▸ linksFrom_put d.tree k (by simp)
  | file c m => exact Except.ok.inj h ▸ linksFrom_put d.tree k (by simp)
  | link target => exact absurd h (by simp)

theorem ensureDirs_linksFrom (d : Disk) (path : String) :
    LinksFrom d.tree (d.ensureDirs path).1.tree :=
  ensureAncestors_keeps (P := fun d' => LinksFrom d.tree d'.tree)
    (fun _ _ _ _ hlinks hmake => hlinks.trans (makeDir_linksFrom hmake)) (.refl _)

end Disk

namespace Archiver.Native

open Act (Keeps)
open Rebadge.Tree (LinksFrom)

variable {w₀ : Workspace} {t : Tree} {path dest : String} {names : List String}
  {m : Tar.Member Content}

/-! ## Packing -/

/-- What was packed are files and directories. -/
def Packed.LinkFree (p : Packed) : Prop := ∀ member ∈ p.1, ∀ target, member.body ≠ .link target

theorem Packed.LinkFree.andThen {p : Packed} (h : p.LinkFree) {next : Unit → Packed}
    (hnext : (next ()).LinkFree) : (p.andThen next).LinkFree := by
  obtain ⟨members, outcome⟩ := p
  cases outcome with
  | error e => exact h
  | ok u =>
    intro member hmember
    rcases List.mem_append.1 hmember with hmember | hmember
    · exact h member hmember
    · exact hnext member hmember

theorem linkFree_packOne {x : Except IoError (Tar.Member Content)}
    (h : ∀ member, x = .ok member → ∀ target, member.body ≠ .link target) :
    (packOne x).LinkFree := by
  cases x with
  | error e => simp [Packed.LinkFree, packOne]
  | ok member => simpa [Packed.LinkFree, packOne] using h member rfl

theorem linkFree_packFile (d : Disk) (path name : String) : (packFile d path name).LinkFree := by
  refine linkFree_packOne fun member h target => ?_
  obtain ⟨memberName, -, h⟩ := except_bind_ok.1 h
  obtain ⟨⟨k, n⟩, -, h⟩ := except_bind_ok.1 h
  cases n with
  | file c m =>
    obtain rfl := Except.ok.inj h
    simp
  | dir m => exact absurd h (by simp)
  | link t => exact absurd h (by simp)

theorem linkFree_packDirectory (d : Disk) (path name : String) :
    (packDirectory d path name).LinkFree := by
  unfold packDirectory
  split
  · simp [Packed.LinkFree]
  refine linkFree_packOne fun member h target => ?_
  obtain ⟨memberName, -, h⟩ := except_bind_ok.1 h
  obtain ⟨⟨k, n⟩, -, h⟩ := except_bind_ok.1 h
  cases n with
  | dir m =>
    obtain rfl := Except.ok.inj h
    simp
  | file c m => exact absurd h (by simp)
  | link t => exact absurd h (by simp)

/-- **No links are packed**, whatever the directory holds. -/
theorem packTree_linkFree (d : Disk) (depth : Nat) (path name : String) :
    (packTree d depth path name).LinkFree := by
  induction depth generalizing path name with
  | zero => simp [Packed.LinkFree, packTree]
  | succ depth ih =>
    rw [packTree]
    cases d.list path with
    | error e => simp [Packed.LinkFree]
    | ok names =>
      suffices h : ∀ p : Packed, p.LinkFree →
          (names.foldl (fun (done : Packed) y => done.andThen fun () =>
          packChild d depth (Path.join path y) (Path.join name y)) p).LinkFree from
        h _ (linkFree_packDirectory d path name)
      induction names with
      | nil => exact fun p hp => hp
      | cons y names ihNames =>
        intro p hp
        refine ihNames _ (hp.andThen ?_)
        unfold packChild
        split
        · exact ih _ _
        · exact linkFree_packFile d _ _

/-! ## Unpacking -/

theorem keeps_reporting {P : Workspace → Prop} {α : Type} {act : Act α}
    (h : Keeps P act) (e : IoError) : Keeps P (reporting e act) := by
  have hattempt : Keeps P (Act.attempt act) := by
    intro w hw
    rw [Act.leaves_of_ok (Act.attempt_eq act w)]
    exact h w hw
  unfold reporting
  refine hattempt.bind fun x => ?_
  cases x with
  | ok b => exact Act.keeps_pure b
  | error f =>
    cases f with
    | io x => exact Act.keeps_throw _
    | _ => exact Act.keeps_throw _

/-- All links on the disk are in the tree. -/
def LinksIn (t : Tree) (w : Workspace) : Prop := LinksFrom t w.disk.tree

theorem keeps_change {f : Disk → Except IoError Disk}
    (h : ∀ d d', f d = .ok d' → LinksFrom d.tree d'.tree) : Keeps (LinksIn t) (Act.change f) :=
  Act.keeps_change fun w _ hw hf => LinksFrom.trans hw (h w.disk _ hf)

theorem keeps_makeDirs (path : String) : Keeps (LinksIn t) (Act.makeDirs path) :=
  Act.keeps_makeDirs fun w hw => LinksFrom.trans hw (Disk.ensureDirs_linksFrom w.disk path)

theorem keeps_makeLeading (dest dir : String) (names : List String) :
    Keeps (LinksIn t) (makeLeading dest dir names) := by
  induction names generalizing dir with
  | nil => exact Act.keeps_pure ()
  | cons name rest ih =>
    unfold makeLeading
    refine Act.keeps_disk.bind fun d => ?_
    dsimp only
    split
    · exact (Act.keeps_look _).bind fun _ => (keeps_makeDirs _).bind fun _ => ih _
    · exact ih _

theorem keeps_makeNode (path : String) {n : Node} (hn : ∀ target, n ≠ .link target) :
    Keeps (LinksIn t) (makeNode path n) := by
  have hcreate : Keeps (LinksIn t) (Act.change (·.create path n)) :=
    keeps_change fun _ _ h => Disk.create_linksFrom h hn
  unfold makeNode
  refine Act.keeps_disk.bind fun d => ?_
  split
  · exact (keeps_change fun _ _ h => Disk.unlink_linksFrom h).bind fun _ => hcreate
  · exact hcreate

theorem keeps_makeDirectory (path : String) (mode : Nat) :
    Keeps (LinksIn t) (makeDirectory path mode) := by
  intro w hw
  have hmade : LinksIn t { w with disk := (w.disk.ensureDir path).1 } :=
    LinksFrom.trans hw (Disk.ensureDir_keeps (P := fun d => LinksFrom w.disk.tree d.tree)
      (fun _ hmake => Disk.makeDir_linksFrom hmake) (.refl _))
  exact (Act.keeps_ofExcept _).bind
    (fun _ => keeps_change fun _ _ h => Disk.setMode_linksFrom h) _ hmade

theorem keeps_makeMember (path : String) (hm : ∀ target, m.body ≠ .link target) :
    Keeps (LinksIn t) (makeMember path m) := by
  unfold makeMember
  cases hbody : m.body with
  | link target => exact absurd hbody (hm target)
  | dir => exact keeps_makeDirectory path m.mode
  | file data => exact keeps_makeNode path (by simp)

theorem keeps_unpackMember (dest : String) (hm : ∀ target, m.body ≠ .link target) :
    Keeps (LinksIn t) (unpackMember dest m) := by
  unfold unpackMember
  split
  · exact Act.keeps_pure ()
  · exact Act.keeps_pure ()
  · exact (keeps_reporting (keeps_makeLeading dest dest _) _).bind fun _ =>
      (Act.keeps_look _).bind fun _ => keeps_reporting (keeps_makeMember _ hm) _

/-- **Unpacking** a tarball without links makes none. -/
theorem keeps_extractTarball {w : Workspace} {tarball : String} {la : Location}
    {members : List (Tar.Member Content)} {mode : Nat}
    (hfile : w.disk.find tarball true = .ok (la, .file (.tar members) mode))
    (hmembers : ∀ member ∈ members, ∀ target, member.body ≠ .link target) (dest : String) :
    LinksFrom w.disk.tree (Act.leaves (extractTarball tarball dest) w).disk.tree := by
  have hopen : Act.look (·.find tarball true) w = .ok (la, .file (.tar members) mode) w :=
    Act.look_ok.2 ⟨hfile, rfl⟩
  have hunpack : ∀ top, Keeps (LinksIn w.disk.tree) (do
      let members ← Act.ofExcept ((Content.tar members).tarMembers.mapError .io)
      (unpackOrder members).forM (unpackMember top)) := fun top =>
    (Act.keeps_ofExcept _).bind_of fun found _ _ hfound => by
      obtain rfl : members = found := Except.ok.inj (Act.ofExcept_ok.1 hfound).1
      exact Act.keeps_forM fun member hmember =>
        keeps_unpackMember top (hmembers member ((unpackOrder_perm members).mem_iff.1 hmember))
  unfold extractTarball
  rw [Act.leaves_bind_of_ok hopen]
  refine Keeps.bind (P := LinksIn w.disk.tree) Act.keeps_disk (fun d => ?_) w (LinksFrom.refl _)
  dsimp only
  split
  · exact (keeps_reporting (keeps_makeDirs dest) _).bind fun _ => Act.keeps_disk.bind fun d =>
      hunpack _
  · exact Act.keeps_disk.bind fun d => hunpack _

end Archiver.Native
end Rebadge
