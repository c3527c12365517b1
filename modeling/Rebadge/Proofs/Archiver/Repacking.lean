import Rebadge.Proofs.Archiver.Links
import Rebadge.Proofs.Disk.Siblings

/-!
# Repacking a directory

What was packed of a directory without links has the layout of that directory (`view_membersOf`). So
a directory that is packed, and unpacked into an empty one, comes back as it was, but for modes. A
link does not come back, since there is no member for it (`repacked_iff`).
-/

namespace Rebadge

/-- The node without its mode. -/
def Node.bare : Node → Node
  | .dir _ => .dir 0
  | .file c _ => .file c 0
  | .link target => .link target

namespace Archiver.Native

open Disk (Fits Laid)
open Rebadge.Path (IsPlain IsBase)

variable {w : Workspace} {d : Disk} {path name base dirName out file dest : String}
  {names : List String} {k src dst D : Location} {depth m : Nat} {nodes : List (Location × Node)}

/-! ## The layout of what was packed -/

theorem entryPath_memberOf (hn : ∀ p ∈ names, IsPlain p) (hne : names ≠ []) (n : Node) :
    entryPath (memberOf names n).path = names := by
  rw [path_memberOf]
  exact entryPath_intercalate hn hne (Or.inl rfl)

theorem placed_memberOf (hn : ∀ p ∈ names, IsPlain p) (hne : names ≠ []) (n : Node) :
    placed (memberOf names n) = (names, n.content?) := by
  unfold placed
  rw [entryPath_memberOf hn hne]
  cases n <;> rfl

theorem Packable.isPlain (h : Packable d path k depth) (hname : IsPlain name)
    (hl : Lists d.tree k nodes) {p : Location × Node} (hp : p ∈ nodes) :
    ∀ q ∈ name :: p.1, IsPlain q := by
  have hget : d.tree.get? (k ++ p.1) = some p.2 := (hl.mem p.1 p.2).1 hp
  intro q hq
  rcases List.mem_cons.1 hq with rfl | hq
  · exact hname
  · exact h.plain p.1 (by simp [hget]) q hq

theorem Packable.mem_layout (h : Packable d path k depth) (hname : IsPlain name)
    (hl : Lists d.tree k nodes) {p : Placed} :
    p ∈ layout (membersOf [name] nodes) ↔ ∃ r n, d.tree.get? (k ++ r) = some n ∧
    p = (name :: r, n.content?) := by
  unfold layout membersOf
  rw [List.map_map, List.mem_map]
  constructor
  · rintro ⟨q, hq, rfl⟩
    exact ⟨q.1, q.2, (hl.mem _ _).1 hq, placed_memberOf (h.isPlain hname hl hq) (by simp) q.2⟩
  · rintro ⟨r, n, hget, rfl⟩
    have hmem := (hl.mem r n).2 hget
    exact ⟨(r, n), hmem, placed_memberOf (h.isPlain hname hl hmem) (by simp) n⟩

theorem Packable.unpackable (h : Packable d path k depth) (hname : IsPlain name)
    (hl : Lists d.tree k nodes) : Unpackable (membersOf [name] nodes) := by
  have hplain := fun p hp => h.isPlain hname hl (p := p) hp
  refine ⟨fun member hmember => ?_, fun member hmember => ?_, ?_, fun p hp hfile q hq hpre => ?_⟩
  · obtain ⟨p, hp, rfl⟩ := List.mem_map.1 hmember
    have hget : d.tree.get? (k ++ p.1) = some p.2 := (hl.mem p.1 p.2).1 hp
    intro target hlink
    cases hn : p.2 with
    | dir m => simp [hn, memberOf] at hlink
    | file c m => simp [hn, memberOf] at hlink
    | link target' => exact h.noLink p.1 target' (hget.trans (congrArg some hn))
  · obtain ⟨p, hp, rfl⟩ := List.mem_map.1 hmember
    rw [List.singleton_append, entryPath_memberOf (hplain p hp) (by simp)]
    exact hplain p hp
  · have hplaces : (layout (membersOf [name] nodes)).map Prod.fst =
        (nodes.map Prod.fst).map (name :: ·) := by
      unfold layout membersOf
      simp only [List.map_map]
      refine List.map_congr_left fun p hp => ?_
      exact congrArg Prod.fst (placed_memberOf (hplain p hp) (by simp) p.2)
    rw [hplaces]
    exact hl.nodup.map (List.cons_injective (a := name))
  · -- Where a file is nothing is below.
    obtain ⟨r, n, hget, rfl⟩ := (h.mem_layout hname hl).1 hp
    obtain ⟨r', n', hget', rfl⟩ := (h.mem_layout hname hl).1 hq
    obtain ⟨rest, hrest⟩ := (List.cons_prefix_cons.1 hpre).2
    obtain rfl : r' = r ++ rest := hrest.symm
    by_cases hnil : rest = []
    · rw [hnil, List.append_nil, hget, Option.some.injEq] at hget'
      exact ⟨by simp [hnil], hget' ▸ hfile⟩
    · obtain ⟨m, hdir⟩ := h.closed r rest hnil (by simp [hget'])
      rw [hget, Option.some.injEq] at hdir
      rw [hdir] at hfile
      exact absurd hfile (by simp [Node.content?])

/-- **It looks like the directory.** -/
theorem Packable.view_membersOf (h : Packable d path k depth) (hname : IsPlain name)
    (hl : Lists d.tree k nodes) (r : Location) :
    (layout (membersOf [name] nodes)).view (name :: r) =
      (d.tree.get? (k ++ r)).map Node.content? := by
  have hall := h.unpackable hname hl
  cases hget : d.tree.get? (k ++ r) with
  | none =>
    refine Layout.view_eq_none fun p hp hpre => ?_
    obtain ⟨r', n, hget', rfl⟩ := (h.mem_layout hname hl).1 hp
    obtain ⟨rest, rfl⟩ := (List.cons_prefix_cons.1 hpre).2
    by_cases hnil : rest = []
    · rw [hnil, List.append_nil, hget] at hget'
      exact absurd hget' (by simp)
    · obtain ⟨m, hdir⟩ := h.closed r rest hnil (by simp [hget'])
      rw [hget] at hdir
      exact absurd hdir (by simp)
  | some n =>
    have hmem : (name :: r, n.content?) ∈ layout (membersOf [name] nodes) :=
      (h.mem_layout hname hl).2 ⟨r, n, hget, rfl⟩
    cases n with
    | link target => exact absurd hget (h.noLink r target)
    | file c m => exact Layout.view_of_fileAt ((Layout.fileAt_iff hall.nodup).2 hmem)
    | dir m => exact hall.apart.view_of_isDir ⟨_, hmem, List.prefix_refl _, fun _ => rfl⟩

theorem Packable.view_membersOf_other (h : Packable d path k depth) (hname : IsPlain name)
    (hl : Lists d.tree k nodes) {x : String} (hx : x ≠ name) (r : Location) :
    (layout (membersOf [name] nodes)).view (x :: r) = none := by
  refine Layout.view_eq_none fun p hp hpre => ?_
  obtain ⟨r', n, -, rfl⟩ := (h.mem_layout hname hl).1 hp
  exact hx (List.cons_prefix_cons.1 hpre).1

/-! ## From one directory to another -/

/-- A directory of a base directory, an empty directory, and a place for a tarball that is in
neither of them. -/
structure Repacking (w : Workspace) (base dirName out file dest : String) (src dst D : Location) :
    Prop where
  wellFormed : w.disk.tree.WellFormed
  nodup : w.disk.tree.keys.Nodup
  cwd : Tree.IsPlace w.disk.cwd
  isPlain : IsPlain dirName
  source : w.disk.Leads (Path.join base dirName) src
  plain : ∀ r, w.disk.tree.get? (src ++ r) ≠ none → ∀ p ∈ r, IsPlain p
  /-- All paths fit, those that are packed and those that are unpacked. -/
  fits : ∀ r, w.disk.tree.get? (src ++ r) ≠ none →
    Fits (r.foldl Path.join (Path.join base dirName)) ∧
    Fits ("/".intercalate ("" :: dst ++ dirName :: r))
  target : w.disk.Leads dest dst
  target_ne : dest ≠ ""
  empty : ∀ r, r ≠ [] → w.disk.tree.get? (dst ++ r) = none
  place : w.disk.Leads out D
  isFile : IsPlain file
  fits_file : Fits (Path.join out file)
  /-- There may be a file that is overwritten. -/
  free : w.disk.tree.get? (D ++ [file]) = none ∨
    ∃ c m, w.disk.tree.get? (D ++ [file]) = some (.file c m)
  apart_source : ¬ src <+: D ++ [file]
  apart_target : ¬ dst <+: D ++ [file]

/-- The directory is packed into the tarball and comes back from it: the same paths with the same
directories, files and links, and nothing else. -/
def ComesBack (w : Workspace) (base dirName out file dest : String) (src dst : Location) : Prop :=
  ∃ w₁ w₂, createTarball (Path.join out file) base dirName w = .ok () w₁ ∧
    extractTarball (Path.join out file) dest w₁ = .ok () w₂ ∧
    (∀ r, (w₂.disk.tree.get? (dst ++ dirName :: r)).map Node.bare =
      (w.disk.tree.get? (src ++ r)).map Node.bare) ∧
    ∀ x r, x ≠ dirName → w₂.disk.tree.get? (dst ++ x :: r) = none

/-! ### The tarball -/

/-- The disk with a content in the tarball. -/
def holding (d : Disk) (D : Location) (file : String) (c : Content) (m : Nat) : Disk :=
  d.put (D ++ [file]) (.file c m)

theorem get?_holding (d : Disk) (D : Location) (file : String) (c : Content)
    (m : Nat) (k : Location) :
    (holding d D file c m).tree.get? k = if k = D ++ [file] then some (.file c m)
    else d.tree.get? k :=
  Tree.get?_put (by simp) _ k

theorem Repacking.write (h : Repacking w base dirName out file dest src dst D) :
    ∃ m, ∀ c, w.disk.write (Path.join out file) c = .ok (holding w.disk D file c m) := by
  have hlocate : w.disk.locate (Path.join out file) true = .ok (D ++ [file]) := by
    rw [h.place.locate_join h.isFile true (Or.inr fun target hlink => ?_),
      Disk.joined_of_fits h.isFile h.fits_file]
    rcases h.free with hnone | ⟨c, m, hfile⟩
    · exact absurd (hnone.symm.trans hlink) (by simp)
    · exact absurd (hfile.symm.trans hlink) (by simp)
  rcases h.free with hnone | ⟨c', m, hfile⟩
  · exact ⟨Disk.newFileMode, fun c =>
      Disk.write_ok.2 ⟨_, hlocate, Or.inl ⟨hnone, Path.endsInSlash_join out h.isFile, rfl⟩⟩⟩
  · exact ⟨m, fun c => Disk.write_ok.2 ⟨_, hlocate, Or.inr ⟨c', m, hfile, rfl⟩⟩⟩

theorem leads_holding {c : Content} (hwrite : w.disk.write path c = .ok (holding w.disk D file c m))
    {p : String} {l : Location} (h : w.disk.Leads p l) : (holding w.disk D file c m).Leads p l :=
  h.extends (Disk.write_extends hwrite) rfl

theorem Repacking.find_holding (h : Repacking w base dirName out file dest src dst D) {c : Content}
    (hwrite : w.disk.write path c = .ok (holding w.disk D file c m)) :
    (holding w.disk D file c m).find (Path.join out file) true = .ok (D ++ [file], .file c m) := by
  have hget := (get?_holding w.disk D file c m (D ++ [file])).trans (if_pos rfl)
  refine Disk.find_eq ?_ hget
  rw [(leads_holding hwrite h.place).locate_join h.isFile true (Or.inr fun target hlink => ?_),
    Disk.joined_of_fits h.isFile h.fits_file]
  exact absurd (hget.symm.trans hlink) (by simp)

theorem Repacking.create (h : Repacking w base dirName out file dest src dst D) :
    ∃ m packed, (∀ c, w.disk.write (Path.join out file) c = .ok (holding w.disk D file c m)) ∧
      packTree (holding w.disk D file (.tar []) m) Disk.pathLimit
      (Path.join base dirName) dirName = packed ∧
      createTarball (Path.join out file) base dirName w =
        Act.ofExcept packed.2 { w with disk := holding w.disk D file (.tar packed.1) m } := by
  obtain ⟨m, hwrite⟩ := h.write
  have hstays := (Disk.find_ok.1 (h.find_holding (hwrite (.tar [])))).1
  exact ⟨m, _, hwrite, rfl, createTarball_eq (by simp) (hwrite (.tar [])) hstays rfl⟩

/-! ### Without links -/

theorem Repacking.get?_below (h : Repacking w base dirName out file dest src dst D)
    (c : Content) (m : Nat) (r : Location) :
    (holding w.disk D file c m).tree.get? (src ++ r) = w.disk.tree.get? (src ++ r) := by
  rw [get?_holding, if_neg]
  rintro heq
  exact h.apart_source (heq ▸ List.prefix_append src r)

theorem Repacking.packable (h : Repacking w base dirName out file dest src dst D)
    (hlinks : ∀ r target, w.disk.tree.get? (src ++ r) ≠ some (.link target)) {c : Content}
    (hwrite : w.disk.write path c = .ok (holding w.disk D file c m)) :
    Packable (holding w.disk D file c m) (Path.join base dirName) src Disk.pathLimit := by
  have hget := h.get?_below c m
  refine ⟨leads_holding hwrite h.source, fun r target => ?_, fun q r hr hsome => ?_,
    Tree.nodup_put (h.nodup.filter _) _ _, fun r hr => ?_, fun r hr => ?_, fun r hr => ?_⟩
  · rw [hget]
    exact hlinks r target
  · rw [List.append_assoc, hget, ← List.append_assoc] at hsome
    rw [hget]
    exact h.wellFormed _ r hr hsome
  all_goals rw [hget] at hr
  · exact h.plain r hr
  · exact shallow_of_fits (h.plain r hr) (h.fits r hr).1
  · exact (h.fits r hr).1

theorem Repacking.laid (h : Repacking w base dirName out file dest src dst D) {c : Content}
    (hwrite : w.disk.write path c = .ok (holding w.disk D file c m)) :
    Laid ["" :: dst] dst [] (holding w.disk D file c m) (holding w.disk D file c m) [] := by
  have hlocate := h.target.locate
  rw [if_neg h.target_ne] at hlocate
  have hne : dst ≠ [] := by
    rintro rfl
    exact h.apart_target List.nil_prefix
  obtain ⟨mode, hD⟩ := h.place.dir
  refine Disk.laid_empty ?_ (Tree.nodup_put (h.nodup.filter _) _ _) hne
    (Disk.isPlace_of_locate h.cwd hlocate) (leads_holding hwrite h.target).dir fun r hr => ?_
  · refine h.wellFormed.put_file (Or.inr ⟨D, file, rfl, mode, hD⟩) (fun m' hdir => ?_) c m
    rcases h.free with hnone | ⟨c', m'', hfile⟩
    · exact absurd (hnone.symm.trans hdir) (by simp)
    · exact absurd (hfile.symm.trans hdir) (by simp)
  · rw [get?_holding, if_neg, h.empty r hr]
    rintro heq
    exact h.apart_target (heq ▸ List.prefix_append dst r)

/-- Files with the same contents and directories are the same, but for modes. -/
theorem bare_eq_of_content? {a b : Option Node} (ha : ∀ target, a ≠ some (.link target))
    (hb : ∀ target, b ≠ some (.link target)) (h : a.map Node.content? = b.map Node.content?) :
    a.map Node.bare = b.map Node.bare := by
  cases a with
  | none => cases b <;> simp_all
  | some n =>
    cases b with
    | none => simp at h
    | some n' => cases n <;> cases n' <;> simp_all [Node.content?, Node.bare]

/-- **A directory without links comes back.** -/
theorem Repacking.comesBack (h : Repacking w base dirName out file dest src dst D)
    (hlinks : ∀ r target, w.disk.tree.get? (src ++ r) ≠ some (.link target)) :
    ComesBack w base dirName out file dest src dst := by
  obtain ⟨m, packed, hwrite, hpack, hcreate⟩ := h.create
  have hpackable := h.packable hlinks (hwrite (.tar []))
  obtain ⟨mode, hdir⟩ := hpackable.leads.dir
  obtain ⟨nodes, htree, hlists⟩ := packTree_ok hpackable (Or.inr h.isPlain) hdir
  have htop : topMembers dirName mode ++ membersOf (topNames dirName) nodes =
      membersOf [dirName] (([], .dir mode) :: nodes) := by
    unfold topMembers topNames
    rw [if_neg h.isPlain.ne_empty, if_neg h.isPlain.ne_empty]
    rfl
  rw [htop] at htree
  generalize (([] : Location), Node.dir mode) :: nodes = all at htree hlists
  obtain rfl := hpack.symm.trans htree
  have hall := hpackable.unpackable h.isPlain hlists
  have hget := h.get?_below (.tar []) m
  -- The tarball is unpacked, and what is there has the layout of the members.
  have hfull := hwrite (.tar (membersOf [dirName] all))
  obtain ⟨mode', hdest⟩ := (leads_holding hfull h.target).dir
  have hlocate := (leads_holding hfull h.target).locate
  rw [if_neg h.target_ne] at hlocate
  obtain ⟨d, hextract, hlaid⟩ :=
    extractTarball_ok (w := { w with disk := holding w.disk D file _ m })
      (h.find_holding hfull) (Disk.find_eq hlocate hdest) (h.laid hfull)
        (List.mem_singleton_self _) hall
      fun member hmember => by
        obtain ⟨p, hp, rfl⟩ := List.mem_map.1 hmember
        have hnode : w.disk.tree.get? (src ++ p.1) = some p.2 :=
          (hget p.1).symm.trans ((hlists.mem p.1 p.2).1 hp)
        rw [List.singleton_append,
          entryPath_memberOf (hpackable.isPlain h.isPlain hlists hp) (by simp)]
        exact (h.fits p.1 (by simp [hnode])).2
  refine ⟨_, _, hcreate, hextract, fun r => ?_, fun x r hx => ?_⟩
  · have hshown := hlaid.shown (dirName :: r) (by simp)
    rw [hpackable.view_membersOf h.isPlain hlists, hget] at hshown
    exact bare_eq_of_content? (hlaid.kept.clear.noLink _) (hlinks r) hshown
  · exact (hlaid.none_iff (by simp)).2 (hpackable.view_membersOf_other h.isPlain hlists hx r)

/-! ### With links -/

theorem Repacking.linkFree (h : Repacking w base dirName out file dest src dst D)
    {w₁ w₂ : Workspace} (hcreate : createTarball (Path.join out file) base dirName w = .ok () w₁)
    (hextract : extractTarball (Path.join out file) dest w₁ = .ok () w₂) {r : Location}
    (hr : r ≠ []) (target : String) :
    w₂.disk.tree.get? (dst ++ r) ≠ some (.link target) := by
  intro hlink
  obtain ⟨m, packed, hwrite, hpack, hcreate'⟩ := h.create
  have hfree : packed.LinkFree := hpack ▸ packTree_linkFree _ _ _ _
  rw [hcreate'] at hcreate
  obtain ⟨-, rfl⟩ := Act.ofExcept_ok.1 hcreate
  have hwritten := hwrite (.tar packed.1)
  have hunpacked := keeps_extractTarball
    (w := { w with disk := holding w.disk D file (.tar packed.1) m })
    (h.find_holding hwritten) hfree dest
  rw [Act.leaves_of_ok hextract] at hunpacked
  have hbefore := Disk.write_linksFrom hwritten _ target (hunpacked _ target hlink)
  rw [h.empty r hr] at hbefore
  exact absurd hbefore (by simp)

theorem Repacking.noLink_of_comesBack (h : Repacking w base dirName out file dest src dst D)
    (hback : ComesBack w base dirName out file dest src dst) (r : Location) (target : String) :
    w.disk.tree.get? (src ++ r) ≠ some (.link target) := by
  obtain ⟨w₁, w₂, hcreate, hextract, hsame, -⟩ := hback
  intro hlink
  have hnode := hsame r
  rw [hlink] at hnode
  obtain ⟨n, hn, hbare⟩ := Option.map_eq_some_iff.1 hnode
  cases n with
  | link target' => exact h.linkFree hcreate hextract (List.cons_ne_nil dirName r) target' hn
  | dir m => exact absurd hbare (by simp [Node.bare])
  | file c m => exact absurd hbare (by simp [Node.bare])

/-- **A directory is packed and comes back** exactly if it holds no links. -/
theorem repacked_iff (h : Repacking w base dirName out file dest src dst D) :
    ComesBack w base dirName out file dest src dst ↔
      ∀ r target, w.disk.tree.get? (src ++ r) ≠ some (.link target) :=
  ⟨h.noLink_of_comesBack, h.comesBack⟩

/-- A disk with a directory of some nodes in a base directory, and an empty directory. -/
def withTree (nodes : List (Location × Node)) : Workspace where
  disk := { tree := ⟨[(["out"], .dir 0o755), (["src"], .dir 0o755), (["src", "t"], .dir 0o755)] ++
    nodes.map fun p => ("src" :: "t" :: p.1, p.2)⟩ }

theorem repacking_withTree {nodes : List (Location × Node)}
    (hparents : ∀ p ∈ (withTree nodes).disk.tree.nodes,
      ((withTree nodes).disk.tree.get? p.1.dropLast).any Node.isDir = true)
    (hnodup : (withTree nodes).disk.tree.keys.Nodup)
    (hplain : ∀ r ∈ (withTree nodes).disk.tree.keys.filterMap (["src", "t"] : Location).isPrefixOf?,
      (∀ p ∈ r, IsPlain p) ∧
      Fits (r.foldl Path.join "src/t") ∧ Fits ("/".intercalate ("" :: "out" :: "t" :: r)))
    (hempty : ∀ r ∈ (withTree nodes).disk.tree.keys.filterMap (["out"] : Location).isPrefixOf?,
      r = [])
    (hfree : (withTree nodes).disk.tree.get? ["o.tar.gz"] = none) :
    Repacking (withTree nodes) "src" "t" "" "o.tar.gz" "out" ["src", "t"] ["out"] [] := by
  have hbelow := Tree.forall_below (by simp) hplain
  exact {
    wellFormed := Tree.wellFormed_of_parents hparents
    nodup := hnodup
    cwd := by simp [Tree.IsPlace, withTree]
    isPlain := by decide
    source := ⟨rfl, _, rfl⟩
    plain := fun r hr => (hbelow r hr).1
    fits := fun r hr => (hbelow r hr).2
    target := ⟨rfl, _, rfl⟩
    target_ne := by decide
    empty := fun r hr => Decidable.byContradiction fun hsome =>
      hr (Tree.forall_below (by simp) hempty r hsome)
    place := ⟨rfl, _, rfl⟩
    isFile := by decide
    fits_file := by decide +kernel
    free := Or.inl hfree
    apart_source := by decide
    apart_target := by decide }

/-- A directory in a directory, with an empty file. -/
def nestedTree : List (Location × Node) :=
  [(["d"], .dir 0o755), (["d", "e"], .dir 0o700), (["d", "a"], .file (.bytes []) 0o644)]

theorem repacked_iff_nested :
    Repacking (withTree nestedTree) "src" "t" "" "o.tar.gz" "out" ["src", "t"] ["out"] [] ∧
      (ComesBack (withTree nestedTree) "src" "t" "" "o.tar.gz" "out" ["src", "t"] ["out"] ↔
        ∀ r target, (withTree nestedTree).disk.tree.get? (["src", "t"] ++ r) ≠
          some (.link target)) := by
  have h : Repacking (withTree nestedTree) "src" "t" "" "o.tar.gz" "out" ["src", "t"] ["out"] [] :=
    repacking_withTree (by decide) (by decide) (by decide +kernel) (by decide) rfl
  exact ⟨h, repacked_iff h⟩

/-- A file with a link to it. -/
def linkedTree : List (Location × Node) := [(["a"], .file (.bytes []) 0o644), (["l"], .link "a")]

/-- A link to nothing. -/
def danglingTree : List (Location × Node) := [(["l"], .link "a")]

/-- **Lost links.** A link to a file is packed as a file, and a link to nothing cannot be packed at
all. -/
theorem linked_not_repacked :
    (Act.outcome (createTarball "o.tar.gz" "src" "t") (withTree linkedTree)).isOk = true ∧
      ¬ ComesBack (withTree linkedTree) "src" "t" "" "o.tar.gz" "out" ["src", "t"] ["out"] ∧
      (Act.outcome (createTarball "o.tar.gz" "src" "t") (withTree danglingTree)).isOk = false ∧
      ¬ ComesBack (withTree danglingTree) "src" "t" "" "o.tar.gz" "out" ["src", "t"] ["out"] := by
  have hlinked : Repacking (withTree linkedTree) "src" "t" "" "o.tar.gz" "out" ["src", "t"]
      ["out"] [] :=
    repacking_withTree (by decide) (by decide) (by decide +kernel) (by decide) rfl
  have hdangling : Repacking (withTree danglingTree) "src" "t" "" "o.tar.gz" "out" ["src", "t"]
      ["out"] [] :=
    repacking_withTree (by decide) (by decide) (by decide +kernel) (by decide) rfl
  exact ⟨by decide +kernel, fun hback => hlinked.noLink_of_comesBack hback ["l"] "a" rfl,
    by decide +kernel, fun hback => hdangling.noLink_of_comesBack hback ["l"] "a" rfl⟩

end Archiver.Native
end Rebadge
