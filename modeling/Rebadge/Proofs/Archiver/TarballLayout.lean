import Rebadge.Proofs.Act
import Rebadge.Proofs.Archiver.EntryName
import Rebadge.Proofs.Disk.Layout

/-!
# The layout of a tarball

The members of a tarball of files and directories make a layout (`layout`). A tarball without
conflicts is unpacked into an empty directory member by member, in directories that are made where
they are missing, and then the directory holds its layout (`unpackAll_ok`).
-/

namespace Rebadge.Archiver.Native

open Disk (Scratch Names Fits Free Laid Kept)
open Rebadge.Path (IsPlain IsBase)
open Rebadge.Tree (IsDirs makeWay)

variable {w w' : Workspace} {d o : Disk} {base done names rest front : List String}
  {l : Location} {name : String} {bases : List (List String)} {own : List Location} {L : Layout}
  {m : Tar.Member Content} {members : List (Tar.Member Content)}

/-! ## Members as items -/

/-- What a member makes, and where. -/
def placed (m : Tar.Member Content) : Placed :=
  (entryPath m.path, match m.body with
    | .file data => some data
    | _ => none)

/-- The files and directories of a tarball. -/
def layout (members : List (Tar.Member Content)) : Layout := members.map placed

/-- A tarball of files and directories with plain paths and without conflicts. -/
structure Unpackable (members : List (Tar.Member Content)) : Prop where
  noLink : ∀ m ∈ members, ∀ target, m.body ≠ .link target
  plain : ∀ m ∈ members, ∀ p ∈ entryPath m.path, IsPlain p
  nodup : ((layout members).map Prod.fst).Nodup
  apart : (layout members).Apart

theorem memberNames?_of_plain {path : String} (h : ∀ p ∈ entryPath path, IsPlain p) :
    memberNames? path = some (entryPath path) := by
  unfold memberNames?
  rw [components_of_plain h]
  induction entryPath path with
  | nil => rfl
  | cons p rest ih => rw [List.map_cons, List.foldr_cons, ih]

/-! ## The directories of a member -/

theorem reporting_ok {α : Type} {act : Act α} {a : α} (e : IoError) (h : act w = .ok a w') :
    reporting e act w = .ok a w' :=
  Act.bind_ok.2 ⟨.ok a, w', Act.attempt_ok.2 h, rfl⟩

theorem checkInside_ok (hs : Scratch d base l) (hn : Names base names)
    (hdirs : IsDirs d.tree l names) :
    checkInside d ("/".intercalate base) ("/".intercalate (base ++ names)) = .ok () := by
  have hn₀ : Names base [] := Names.left (q := []) hs.isBase hn
  have hdirs₀ : IsDirs d.tree l [] := hdirs.left (q := [])
  obtain ⟨m, hfind⟩ := hs.find_dirs hn hdirs true
  obtain ⟨m₀, hfind₀⟩ := hs.find_dirs hn₀ hdirs₀ true
  rw [List.append_nil, List.append_nil] at hfind₀
  unfold checkInside canonical
  rw [hfind, hfind₀]
  exact if_pos (List.isPrefixOf_iff_prefix.2 (List.prefix_append l names))

/-- **The leading directories** are made where they are missing. -/
theorem makeLeading_ok (hs : Scratch w.disk base l) (hn : Names base (done ++ rest))
    (hdone : IsDirs w.disk.tree l done) (hfree : Free w.disk.tree l (done ++ rest)) :
    makeLeading ("/".intercalate base) ("/".intercalate (base ++ done)) rest w =
      .ok () { w with disk := { w.disk with tree := makeWay w.disk.tree (l ++ done) rest } } := by
  induction rest generalizing done w with
  | nil => rfl
  | cons name rest ih =>
    have hassoc : done ++ name :: rest = (done ++ [name]) ++ rest := by simp
    rw [hassoc] at hn hfree
    have hname := hn.left hs.isBase
    have hslash : '/' ∉ name.toList := (hname.plain name (by simp)).slash
    have hjoin : Path.join ("/".intercalate (base ++ done)) name =
        "/".intercalate (base ++ (done ++ [name])) := by
      rw [Path.join_plain (hs.isBase.append (hname.left hs.isBase).plain) hslash, List.append_assoc]
    have hlocate := hs.locate_append hname hdone false
    have hway : makeWay (makeWay w.disk.tree l (done ++ [name])) (l ++ (done ++ [name])) rest =
        makeWay w.disk.tree (l ++ done) (name :: rest) := by
      rw [Tree.makeWay_append, Disk.makeWay_of_isDirs hdone, ← List.append_assoc,
        ← Tree.makeWay_append]
      rfl
    unfold makeLeading
    rw [hjoin]
    refine Act.bind_ok.2 ⟨w.disk, w, Act.disk_ok.2 ⟨rfl, rfl⟩, ?_⟩
    rcases hfree (done ++ [name]) (by simp) (List.prefix_append _ _) with hnone | ⟨m, hdir⟩
    · rw [← List.append_assoc] at hnone
      have hmissing : (w.disk.find ("/".intercalate (base ++ (done ++ [name])))
          false).toOption.isNone = true := by
        unfold Disk.find
        rw [hlocate]
        simp only [bind, Except.bind, hnone]
        rfl
      have hmake : Act.makeDirs ("/".intercalate (base ++ (done ++ [name]))) w =
          .ok () { w with disk :=
            { w.disk with tree := makeWay w.disk.tree l (done ++ [name]) } } :=
        Act.makeDirs_ok.2 (by rw [hs.ensureDirs hname hfree.left]; exact ⟨rfl, rfl⟩)
      have hrest :=
        ih (w := { w with disk := { w.disk with tree := makeWay w.disk.tree l (done ++ [name]) } })
          (hs.makeWay hfree.left) hn (Disk.isDirs_makeWay hs.dir hfree.left) (hfree.makeWay _)
      rw [if_pos hmissing]
      refine Act.bind_ok.2
        ⟨(), w, Act.look_ok.2 ⟨checkInside_ok hs (hname.left hs.isBase) hdone, rfl⟩, ?_⟩
      refine Act.bind_ok.2 ⟨(), _, hmake, hrest.trans ?_⟩
      exact congrArg (fun t => EStateM.Result.ok ()
        ({ w with disk := { w.disk with tree := t } } : Workspace)) hway
    · have hdirs := hdone.concat ⟨m, hdir⟩
      rw [hs.find_append hname (by simp) hdir false]
      rw [Disk.makeWay_of_isDirs hdirs] at hway
      refine (ih hs hn hdirs hfree).trans ?_
      exact congrArg (fun t => EStateM.Result.ok ()
        ({ w with disk := { w.disk with tree := t } } : Workspace)) hway

/-! ## One member -/

theorem unpackMember_eq {dest : String} (h : memberNames? m.path = some (front ++ [name])) :
    unpackMember dest m = (do
      reporting (.unpackDir (front.foldl Path.join dest)) (makeLeading dest dest front)
      Act.look (checkInside · dest (front.foldl Path.join dest))
      reporting (.unpack ((front ++ [name]).foldl Path.join dest))
          (makeMember ((front ++ [name]).foldl Path.join dest) m)) := by
  obtain ⟨x, xs, hx⟩ :=
    List.exists_cons_of_ne_nil (List.append_ne_nil_of_right_ne_nil front (List.cons_ne_nil name []))
  unfold unpackMember
  rw [h, hx]
  dsimp only
  rw [← hx, List.dropLast_concat]

theorem makeNode_ok {path : String} {k : Location} (hlocate : w.disk.locate path false = .ok k)
    (hnone : w.disk.tree.get? k = none) (n : Node) :
    makeNode path n w = .ok () { w with disk := w.disk.put k n } := by
  have hfind : (w.disk.find path false).toOption.isSome = false := by
    unfold Disk.find
    rw [hlocate]
    simp only [bind, Except.bind, hnone]
    rfl
  have hcreate : w.disk.create path n = .ok (w.disk.put k n) := by
    unfold Disk.create
    rw [hlocate]
    simp only [bind, Except.bind, hnone]
  unfold makeNode
  refine Act.bind_ok.2 ⟨w.disk, w, Act.disk_ok.2 ⟨rfl, rfl⟩, ?_⟩
  rw [hfind]
  exact Act.change_ok.2 ⟨_, hcreate, rfl⟩

theorem makeDirectory_ok (hs : Scratch w.disk base l) (hn : Names base (front ++ [name]))
    (hdirs : IsDirs w.disk.tree l front) (hfree : Free w.disk.tree l (front ++ [name]))
    (mode : Nat) :
    makeDirectory ("/".intercalate (base ++ (front ++ [name]))) mode w =
      .ok () { w with
        disk := Disk.put { w.disk with tree := makeWay w.disk.tree l (front ++ [name]) }
          (l ++ front ++ [name]) (.dir (permissions mode)) } := by
  have hensure := (hs.along_names hn).ensureDir hdirs hfree
  have hs' := hs.makeWay hfree
  have hway := Disk.isDirs_makeWay hs.dir hfree
  have hset : Disk.setMode { w.disk with tree := makeWay w.disk.tree l (front ++ [name]) }
      ("/".intercalate (base ++ (front ++ [name]))) (permissions mode) =
        .ok (Disk.put { w.disk with tree := makeWay w.disk.tree l (front ++ [name]) }
          (l ++ front ++ [name]) (.dir (permissions mode))) := by
    obtain ⟨m, hfind⟩ := hs'.find_dirs hn hway true
    unfold Disk.setMode
    rw [hfind, ← List.append_assoc]
    exact congrArg Except.ok (if_neg (by simp))
  unfold makeDirectory
  refine Act.bind_ok.2 ⟨w.disk, w, Act.disk_ok.2 ⟨rfl, rfl⟩, ?_⟩
  rw [hensure]
  refine Act.bind_ok.2 ⟨(), _, Act.setDisk_ok.2 rfl, ?_⟩
  exact Act.bind_ok.2 ⟨(), _, Act.ofExcept_ok.2 ⟨rfl, rfl⟩, Act.change_ok.2 ⟨_, hset, rfl⟩⟩

/-- Above an item that keeps apart from a layout there is room for directories. -/
theorem free_front (h : Laid bases l own o w.disk L) {x : Option Content}
    (hapart : (L ++ [(front ++ [name], x)]).Apart) : Free w.disk.tree l front :=
  h.free (r := front ++ [name]) (x := x) hapart (List.prefix_append _ _) (Or.inl (by simp))

theorem makeMember_dir_ok (h : Laid bases l own o w.disk L) (hbase : base ∈ bases)
    (hn : Names base (front ++ [name])) (hbody : m.body = .dir)
    (hapart : (L ++ [(front ++ [name], none)]).Apart) :
    ∃ d, makeMember ("/".intercalate (base ++ (front ++ [name]))) m
      { w with disk := { w.disk with tree := makeWay w.disk.tree l front } } = .ok ()
        { w with disk := d } ∧
        Laid bases l own o d (L ++ [(front ++ [name], none)]) := by
  have hs := h.kept.scratch hbase
  have hfront := free_front h hapart
  have hfree := h.free hapart (List.prefix_refl _) (Or.inr rfl)
  have hmake := makeDirectory_ok
    (w := { w with disk := { w.disk with tree := makeWay w.disk.tree l front } })
    (hs.makeWay hfront) hn (Disk.isDirs_makeWay hs.dir hfront) (hfree.makeWay front) m.mode
  rw [Disk.makeWay_makeWay hs.dir hfront] at hmake
  unfold makeMember
  rw [hbody]
  refine ⟨_, hmake, (h.addDir hn.plain hapart).chmod hn.plain ?_ _⟩
  rw [List.append_assoc]
  exact (Disk.isDirs_makeWay hs.dir hfree).self

theorem makeMember_file_ok (h : Laid bases l own o w.disk L) (hbase : base ∈ bases)
    (hn : Names base (front ++ [name])) {data : Content} (hbody : m.body = .file data)
    (hnew : ∀ c, L.fileAt (front ++ [name]) ≠ some c)
    (hapart : (L ++ [(front ++ [name], some data)]).Apart) :
    ∃ d, makeMember ("/".intercalate (base ++ (front ++ [name]))) m
      { w with disk := { w.disk with tree := makeWay w.disk.tree l front } } = .ok ()
        { w with disk := d } ∧
        Laid bases l own o d (L ++ [(front ++ [name], some data)]) := by
  have hs := h.kept.scratch hbase
  have hfront := free_front h hapart
  have hlocate := (hs.makeWay hfront).locate_append hn (Disk.isDirs_makeWay hs.dir hfront) false
  have hview : L.view (front ++ [name]) = none := by
    cases hview : L.view (front ++ [name]) with
    | none => rfl
    | some x =>
      cases x with
      | none => exact absurd hview hapart.view_place
      | some c => exact absurd (Layout.view_eq_file.1 hview) (hnew c)
  have hnone : (makeWay w.disk.tree l front).get? (l ++ front ++ [name]) = none := by
    have hcontent := Disk.content?_makeWay hfront (q := front ++ [name]) (by simp)
    rwa [if_neg fun hpre => absurd hpre.length_le (by simp), h.shown _ (by simp), hview,
      Option.map_eq_none_iff, ← List.append_assoc] at hcontent
  unfold makeMember
  rw [hbody]
  exact ⟨_, makeNode_ok hlocate hnone _, h.addFile hn.plain hapart _⟩

/-- **A member is unpacked** where there is no file yet, and nothing is in its way. -/
theorem unpackMember_ok (h : Laid bases l own o w.disk L) (hbase : base ∈ bases)
    (hlink : ∀ target, m.body ≠ .link target) (hn : Names base (entryPath m.path))
    (hnew : ∀ c, L.fileAt (entryPath m.path) ≠ some c) (hapart : (L ++ [placed m]).Apart) :
    ∃ d, unpackMember ("/".intercalate base) m w = .ok () { w with disk := d } ∧
      Laid bases l own o d (L ++ [placed m]) := by
  obtain ⟨front, name, hpath⟩ :=
    (List.eq_nil_or_concat' (entryPath m.path)).resolve_left (entryPath_ne_nil m.path)
  have hs := h.kept.scratch hbase
  have hnames := memberNames?_of_plain hn.plain
  have hplaced : placed m = (front ++ [name], (placed m).2) := Prod.ext hpath rfl
  have hfront : Free w.disk.tree l front := free_front h (by rwa [← hplaced])
  rw [hpath] at hnames hn hnew
  have hnLeading : Names base ([] ++ front) := hn.left hs.isBase
  have hleading := makeLeading_ok hs hnLeading hs.isDirs_nil hfront
  rw [List.append_nil, List.append_nil] at hleading
  have hinside := checkInside_ok (hs.makeWay hfront) (hn.left hs.isBase)
    (Disk.isDirs_makeWay hs.dir hfront)
  suffices hmake : ∃ d, makeMember ("/".intercalate (base ++ (front ++ [name]))) m
      { w with disk := { w.disk with tree := makeWay w.disk.tree l front } } = .ok ()
        { w with disk := d } ∧
        Laid bases l own o d (L ++ [placed m]) by
    obtain ⟨d, hmake, hlaid⟩ := hmake
    rw [unpackMember_eq hnames, Path.foldl_join hs.isBase (hn.left hs.isBase).plain,
      Path.foldl_join hs.isBase hn.plain]
    refine ⟨d, Act.bind_ok.2 ⟨(), _, reporting_ok _ hleading, ?_⟩, hlaid⟩
    refine Act.bind_ok.2 ⟨(), _, Act.look_ok.2 ⟨hinside, rfl⟩, ?_⟩
    exact reporting_ok _ hmake
  cases hbody : m.body with
  | link target => exact absurd hbody (hlink target)
  | dir =>
    have hitem : placed m = (front ++ [name], none) := by rw [placed, hpath, hbody]
    rw [hitem] at hapart ⊢
    exact makeMember_dir_ok h hbase hn hbody hapart
  | file data =>
    have hitem : placed m = (front ++ [name], some data) := by rw [placed, hpath, hbody]
    rw [hitem] at hapart ⊢
    exact makeMember_file_ok h hbase hn hbody hnew hapart

/-! ## All members -/

theorem layout_append (members more : List (Tar.Member Content)) :
    layout (members ++ more) = layout members ++ layout more := List.map_append

theorem Unpackable.perm {more : List (Tar.Member Content)} (h : Unpackable members)
    (hperm : members.Perm more) : Unpackable more where
  noLink m hm := h.noLink m (hperm.mem_iff.2 hm)
  plain m hm := h.plain m (hperm.mem_iff.2 hm)
  nodup := ((hperm.map placed).map Prod.fst).nodup_iff.1 h.nodup
  apart := h.apart.mono fun p hp => ⟨p, (hperm.map placed).mem_iff.2 hp, rfl, rfl⟩

theorem unpackOrder_perm (members : List (Tar.Member Content)) :
    (unpackOrder members).Perm members := by
  have hsort := Sorted.sort_perm (fun a b => Text.le b.path a.path) (members.filter (·.isDir))
  exact (List.Perm.append_left _ hsort).trans
    (List.perm_append_comm.trans (List.filter_append_perm (·.isDir) members))

/-- **All members are unpacked**, where those that are unpacked already are in no one's way. -/
theorem unpackAll_ok (hbase : base ∈ bases) {before : List (Tar.Member Content)}
    (h : Laid bases l own o w.disk (layout before)) (hall : Unpackable (before ++ members))
    (hfits : ∀ m ∈ members, Fits ("/".intercalate (base ++ entryPath m.path))) :
    ∃ d, members.forM (unpackMember ("/".intercalate base)) w = .ok () { w with disk := d } ∧
      Laid bases l own o d (layout (before ++ members)) := by
  induction members generalizing before w with
  | nil => exact ⟨w.disk, rfl, by rwa [List.append_nil]⟩
  | cons m members ih =>
    have hassoc : before ++ m :: members = (before ++ [m]) ++ members := by simp
    have hmem : m ∈ before ++ m :: members := by simp
    have hnew : ∀ c, (layout before).fileAt (entryPath m.path) ≠ some c := by
      intro c hfile
      have hnodup := hall.nodup
      rw [layout_append, List.map_append, List.nodup_append] at hnodup
      exact hnodup.2.2 _ (List.mem_map_of_mem (Layout.mem_of_fileAt hfile)) (entryPath m.path)
        (by simp [layout, placed]) rfl
    have hapart : (layout before ++ [placed m]).Apart := by
      have := hall.apart
      rw [hassoc, layout_append] at this
      exact (layout_append before [m] ▸ this.left)
    obtain ⟨d, hunpack, hlaid⟩ := unpackMember_ok h hbase (hall.noLink m hmem)
      ⟨hall.plain m hmem, hfits m (List.mem_cons_self ..)⟩ hnew hapart
    have hlaidNext : Laid bases l own o d (layout (before ++ [m])) := by
      rw [layout_append]
      exact hlaid
    obtain ⟨d', hrest, hlaid'⟩ := ih (w := { w with disk := d }) hlaidNext (hassoc ▸ hall)
      fun m' hm' => hfits m' (List.mem_cons_of_mem _ hm')
    exact ⟨d', Act.forM_cons_ok.2 ⟨_, hunpack, hrest⟩, by rwa [hassoc]⟩

/-- **A tarball is unpacked** into a directory where nothing is in its way. -/
theorem extractTarball_ok {tarball dest : String} {la : Location} {mode : Nat} {n : Node}
    (hfile : w.disk.find tarball true = .ok (la, .file (.tar members) mode))
    (hdest : w.disk.find dest true = .ok (l, n)) (h : Laid bases l own o w.disk [])
    (hbase : ("" :: l) ∈ bases) (hall : Unpackable members)
    (hfits : ∀ m ∈ members, Fits ("/".intercalate ("" :: l ++ entryPath m.path))) :
    ∃ d, extractTarball tarball dest w = .ok () { w with disk := d } ∧
      Laid bases l own o d (layout members) := by
  have hperm := unpackOrder_perm members
  have hordered : Unpackable ([] ++ unpackOrder members) := hall.perm hperm.symm
  have hempty : Laid bases l own o w.disk (layout []) := h
  obtain ⟨d, hunpack, hlaid⟩ :=
    unpackAll_ok hbase hempty hordered fun m hm => hfits m (hperm.mem_iff.1 hm)
  refine ⟨d, ?_, hlaid.congr (Layout.view_perm (hperm.map placed) hordered.nodup)⟩
  obtain ⟨found, hfound⟩ := Disk.find_nofollow hdest
  unfold extractTarball
  refine Act.bind_ok.2 ⟨_, _, Act.look_ok.2 ⟨hfile, rfl⟩, ?_⟩
  refine Act.bind_ok.2 ⟨_, _, Act.disk_ok.2 ⟨rfl, rfl⟩, ?_⟩
  have hthere : (w.disk.find dest false).toOption.isNone = false := by
    rw [hfound]
    rfl
  rw [hthere]
  refine Act.bind_ok.2 ⟨_, _, Act.disk_ok.2 ⟨rfl, rfl⟩, ?_⟩
  rw [hdest]
  refine Act.bind_ok.2 ⟨_, _, Act.ofExcept_ok.2 ⟨rfl, rfl⟩, ?_⟩
  rw [← Disk.locationText_eq h.kept.clear.ne_nil] at hunpack
  exact hunpack

end Rebadge.Archiver.Native
