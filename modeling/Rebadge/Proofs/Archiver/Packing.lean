import Mathlib.Tactic.Choose
import Rebadge.Proofs.Disk.Joining
import Rebadge.Proofs.Disk.Scratch
import Rebadge.Proofs.Outcome
import Rebadge.Proofs.Tree.Listing

/-!
# Packing

A directory that holds no links is packed node by node: each node below it makes one member
(`packTree_ok`). Nothing but a path that is too long can keep a node from being packed.
-/

namespace Rebadge

namespace Path

theorem size_lt_join (path : String) {name : String} (h : IsPlain name) :
    path.utf8ByteSize < (join path name).utf8ByteSize := by
  have hname : 0 < name.utf8ByteSize :=
    Nat.pos_of_ne_zero fun hzero => h.ne_empty (String.utf8ByteSize_eq_zero_iff.1 hzero)
  unfold join
  rw [isAbsolute_plain h.slash]
  by_cases hempty : path = ""
  · rw [if_pos (Or.inr hempty), hempty]
    exact hname
  · rw [if_neg (by simp [hempty])]
    split <;> simp only [String.utf8ByteSize_append] <;> omega

theorem length_le_foldl_join (path : String) {names : List String} (hn : ∀ p ∈ names, IsPlain p) :
    names.length ≤ (names.foldl join path).utf8ByteSize := by
  induction names using List.reverseRecOn with
  | nil => exact Nat.zero_le _
  | append_singleton names name ih =>
    have hjoin := size_lt_join (names.foldl join path) (hn name (by simp))
    have hnames := ih fun p hp => hn p (List.mem_append_left _ hp)
    rw [List.foldl_append, List.foldl_cons, List.foldl_nil, List.length_append,
      List.length_singleton]
    omega

end Path

namespace Archiver.Native

open Disk (Scratch Names Fits)
open Rebadge.Path (IsPlain IsBase)

variable {d : Disk} {base : List String} {l k : Location} {names : List String}
  {name path y : String} {depth m : Nat}

/-! ## Members -/

/-- The member for a node with the given names. -/
def memberOf (names : List String) : Node → Tar.Member Content
  | .dir mode => ⟨"/".intercalate names, .dir, mode⟩
  | .file c mode => ⟨"/".intercalate names, .file c, mode⟩
  | .link target => ⟨"/".intercalate names, .link target, 0o777⟩

theorem path_memberOf (names : List String) (n : Node) :
    (memberOf names n).path = "/".intercalate names := by
  cases n <;> rfl

/-- The members for several nodes below some names. -/
def membersOf (names : List String) (nodes : List (Location × Node)) : List (Tar.Member Content) :=
  nodes.map fun p => memberOf (names ++ p.1) p.2

theorem memberPath_normal (before names : List String) (hne : before ++ names ≠ []) :
    memberPath before (names.map .normal) = .ok ("/".intercalate (before ++ names)) := by
  induction names generalizing before with
  | nil =>
    rw [List.append_nil] at hne ⊢
    rw [List.map_nil, memberPath, if_neg hne]
  | cons name names ih =>
    rw [List.map_cons, memberPath, ih _ (by simp), List.append_assoc, List.singleton_append]

theorem memberPath_components (hn : ∀ p ∈ names, IsPlain p) (hne : names ≠ []) :
    memberPath [] (Path.components ("/".intercalate names)) = .ok ("/".intercalate names) := by
  rw [Path.components_intercalate hn hne, memberPath_normal [] names (by simpa using hne),
    List.nil_append]

/-! ## What is below a directory -/

/-- The nodes are those at a location and below it, each once. -/
structure Lists (t : Tree) (k : Location) (nodes : List (Location × Node)) : Prop where
  nodup : (nodes.map Prod.fst).Nodup
  mem : ∀ r n, (r, n) ∈ nodes ↔ t.get? (k ++ r) = some n

theorem Lists.directory {t : Tree} {n : Node} (hk : t.get? k = some n) (hnodup : (t.names k).Nodup)
    (hclosed : ∀ y r, t.get? (k ++ y :: r) ≠ none → t.get? (k ++ [y]) ≠ none)
    {nodes : String → List (Location × Node)}
    (hnodes : ∀ y ∈ t.names k, Lists t (k ++ [y]) (nodes y)) :
    Lists t k (([], n) :: (t.names k).flatMap fun y => (nodes y).map fun p => (y :: p.1, p.2)) := by
  refine ⟨?_, fun r n' => ?_⟩
  · rw [List.map_cons, List.nodup_cons, List.map_flatMap]
    refine ⟨fun hmem => ?_, List.nodup_flatMap.2 ⟨fun y hy => ?_, hnodup.imp fun {y z} hne => ?_⟩⟩
    · obtain ⟨y, -, hy⟩ := List.mem_flatMap.1 hmem
      simp at hy
    · rw [List.map_map]
      have hinj : Function.Injective (List.cons y : Location → Location) := List.cons_injective
      have := (hnodes y hy).nodup.map hinj
      rwa [List.map_map] at this
    · intro r hr hr'
      simp only [List.map_map, List.mem_map, Function.comp_apply] at hr hr'
      obtain ⟨p, -, rfl⟩ := hr
      obtain ⟨q, -, hq⟩ := hr'
      exact hne (List.cons.inj hq).1.symm
  · cases r with
    | nil => simp [hk, eq_comm]
    | cons y r =>
      have hmem : (y :: r, n') ∈ ((([] : Location), n) :: (t.names k).flatMap fun y =>
          (nodes y).map fun p => (y :: p.1, p.2)) ↔
          y ∈ t.names k ∧ (r, n') ∈ nodes y := by
        simp only [List.mem_cons, List.mem_flatMap, List.mem_map, Prod.mk.injEq, List.cons.injEq]
        constructor
        · rintro (⟨h, -⟩ | ⟨z, hz, ⟨q, m⟩, hq, ⟨rfl, rfl⟩, rfl⟩)
          · exact absurd h (by simp)
          · exact ⟨hz, hq⟩
        · rintro ⟨hy, hr⟩
          exact Or.inr ⟨y, hy, (r, n'), hr, ⟨rfl, rfl⟩, rfl⟩
      rw [hmem, show k ++ y :: r = k ++ [y] ++ r by simp]
      constructor
      · rintro ⟨hy, hr⟩
        exact ((hnodes y hy).mem r n').1 hr
      · intro hget
        have hy : y ∈ t.names k :=
          Tree.mem_names_iff.2 (hclosed y r (by rw [List.append_cons, hget]; simp))
        exact ⟨hy, ((hnodes y hy).mem r n').2 hget⟩

theorem Lists.single {t : Tree} {n : Node} (hk : t.get? k = some n)
    (hnone : ∀ r, r ≠ [] → t.get? (k ++ r) = none) : Lists t k [([], n)] := by
  refine ⟨by simp, fun r n' => ?_⟩
  by_cases hr : r = []
  · simp [hr, hk, eq_comm]
  · simp [hr, hnone r hr]

/-! ## The recursion -/

/-- What is done for each name in a directory. -/
def packChild (d : Disk) (depth : Nat) (path name : String) : Packed :=
  if d.isDir path then packTree d depth path name else packFile d path name

theorem foldl_andThen {names : List String} {step : String → Packed}
    {members : String → List (Tar.Member Content)} (h : ∀ y ∈ names, step y = (members y, .ok ()))
    (first : List (Tar.Member Content)) :
    names.foldl (fun (done : Packed) y => done.andThen fun () => step y) (first, .ok ()) =
      (first ++ names.flatMap members, .ok ()) := by
  induction names generalizing first with
  | nil => simp
  | cons y names ih =>
    rw [List.foldl_cons, show Packed.andThen (first, .ok ()) (fun () => step y) =
      (first ++ (step y).1, (step y).2) from rfl, h y (List.mem_cons_self ..),
      ih fun z hz => h z (List.mem_cons_of_mem _ hz), List.flatMap_cons, List.append_assoc]

/-- A directory is packed before what it holds. -/
theorem packTree_succ (hlist : d.list path = .ok (d.tree.names k))
    {first : List (Tar.Member Content)} (hfirst : packDirectory d path name = (first, .ok ()))
    {members : String → List (Tar.Member Content)} (hmembers : ∀ y ∈ d.tree.names k,
      packChild d depth (Path.join path y) (Path.join name y) = (members y, .ok ())) :
    packTree d (depth + 1) path name = (first ++ (d.tree.names k).flatMap members, .ok ()) := by
  rw [packTree, hlist]
  dsimp only
  rw [hfirst]
  exact foldl_andThen hmembers first

/-! ## A directory without links -/

/-- The path leads to a directory without links, in which every node lies in a directory and has a
plain name and a location of its own. All below it can be looked at, and packed to the given
depth. -/
structure Packable (d : Disk) (path : String) (k : Location) (depth : Nat) : Prop where
  leads : d.Leads path k
  noLink : ∀ r target, d.tree.get? (k ++ r) ≠ some (.link target)
  closed : ∀ q r, r ≠ [] → d.tree.get? (k ++ q ++ r) ≠ none →
    ∃ m, d.tree.get? (k ++ q) = some (.dir m)
  nodup : (d.tree.keys.filter k.isPrefixOf).Nodup
  plain : ∀ r, d.tree.get? (k ++ r) ≠ none → ∀ p ∈ r, IsPlain p
  shallow : ∀ r, d.tree.get? (k ++ r) ≠ none → r.length < depth
  fits : ∀ r, d.tree.get? (k ++ r) ≠ none → Fits (r.foldl Path.join path)

theorem Packable.find (h : Packable d path k depth) (hdir : d.tree.get? k = some (.dir m)) :
    d.find path true = .ok (k, .dir m) := by
  have hfits : Fits path := h.fits [] (by simp [hdir])
  have hlocate := h.leads.locate
  rw [if_neg hfits.ne_empty] at hlocate
  exact Disk.find_eq hlocate hdir

theorem Packable.find_child (h : Packable d path k depth) {n : Node}
    (hget : d.tree.get? (k ++ [y]) = some n) :
    d.find (Path.join path y) true = .ok (k ++ [y], n) := by
  have hsome : d.tree.get? (k ++ [y]) ≠ none := by simp [hget]
  have hname : IsPlain y := h.plain [y] hsome y (by simp)
  refine Disk.find_eq ?_ hget
  rw [h.leads.locate_join hname true (Or.inr (h.noLink [y])),
    Disk.joined_of_fits hname (h.fits [y] hsome)]

theorem Packable.child (h : Packable d path k (depth + 1))
    (hget : d.tree.get? (k ++ [y]) = some (.dir m)) :
    Packable d (Path.join path y) (k ++ [y]) depth := by
  have hbelow : ∀ r, d.tree.get? (k ++ [y] ++ r) ≠ none → d.tree.get? (k ++ y :: r) ≠ none := by
    intro r hr
    rwa [List.append_assoc] at hr
  refine ⟨⟨?_, m, hget⟩, fun r target => ?_, fun q r hr hsome => ?_,
    Tree.nodup_keys_append h.nodup [y], fun r hr p hp => ?_, fun r hr => ?_,
    fun r hr => h.fits (y :: r) (hbelow r hr)⟩
  · have hfits : Fits (Path.join path y) := h.fits [y] (by simp [hget])
    rw [if_neg hfits.ne_empty]
    exact (Disk.find_ok.1 (h.find_child hget)).1
  · rw [List.append_assoc]
    exact h.noLink ([y] ++ r) target
  · rw [List.append_assoc k] at hsome ⊢
    exact h.closed ([y] ++ q) r hr hsome
  · exact h.plain (y :: r) (hbelow r hr) p (List.mem_cons_of_mem _ hp)
  · have hlength := h.shallow (y :: r) (hbelow r hr)
    rw [List.length_cons] at hlength
    omega

theorem packTree_of_children (h : Packable d path k (depth + 1))
    (hk : d.tree.get? k = some (.dir m)) {first : List (Tar.Member Content)}
    (hfirst : packDirectory d path name = (first, .ok ()))
    (hchildren : ∀ y ∈ d.tree.names k, ∃ nodes, packChild d depth (Path.join path y)
      (Path.join name y) = (membersOf (names ++ [y]) nodes, .ok ()) ∧
      Lists d.tree (k ++ [y]) nodes) :
    ∃ nodes, packTree d (depth + 1) path name = (first ++ membersOf names nodes, .ok ()) ∧
      Lists d.tree k (([], .dir m) :: nodes) := by
  choose! nodes hnodes using hchildren
  refine ⟨_, ?_, Lists.directory hk (Tree.nodup_names h.nodup) (fun y r hr => ?_) fun y hy =>
    (hnodes y hy).2⟩
  · rw [packTree_succ (Disk.list_ok.2 ⟨_, m, h.find hk, rfl⟩) hfirst fun y hy => (hnodes y hy).1]
    simp only [membersOf, List.map_flatMap, List.map_map, Function.comp_def, List.append_assoc,
      List.singleton_append]
  · by_cases hnil : r = []
    · rwa [hnil] at hr
    · obtain ⟨m', hdir⟩ := h.closed [y] r hnil (by simpa using hr)
      rw [hdir]
      simp

theorem packDirectory_ok (hn : ∀ p ∈ names, IsPlain p) (hne : names ≠ [])
    (hfind : d.find path true = .ok (k, .dir m)) :
    packDirectory d path ("/".intercalate names) = ([memberOf names (.dir m)], .ok ()) := by
  unfold packDirectory
  rw [if_neg (Path.intercalate_ne_empty (Path.isBase_of_plain hn hne)), hfind,
    memberPath_components hn hne]
  rfl

/-- **What is there is packed**, a directory with all below it. -/
theorem packChild_ok (h : Packable d path k (depth + 1)) (hn : ∀ p ∈ names ++ [y], IsPlain p)
    {n : Node} (hget : d.tree.get? (k ++ [y]) = some n) :
    ∃ nodes, packChild d depth (Path.join path y) ("/".intercalate (names ++ [y])) =
      (membersOf (names ++ [y]) nodes, .ok ()) ∧ Lists d.tree (k ++ [y]) nodes := by
  have hne : names ++ [y] ≠ [] := by simp
  induction depth generalizing path k names y n with
  | zero =>
    have hshallow := h.shallow [y] (by simp [hget])
    exact absurd hshallow (by simp)
  | succ depth ih =>
    have hfind := h.find_child hget
    cases n with
    | link target => exact absurd hget (h.noLink [y] target)
    | file c m =>
      refine ⟨[([], .file c m)], ?_, .single hget fun r hr => ?_⟩
      · unfold packChild Disk.isDir packFile
        rw [hfind, memberPath_components hn hne, membersOf, List.map_singleton, List.append_nil]
        rfl
      · refine Decidable.byContradiction fun hsome => ?_
        obtain ⟨m', hdir⟩ := h.closed [y] r hr hsome
        rw [hget] at hdir
        exact absurd hdir (by simp)
    | dir m =>
      have hchild := h.child hget
      have hchildren : ∀ z ∈ d.tree.names (k ++ [y]), ∃ nodes,
          packChild d depth (Path.join (Path.join path y) z)
            (Path.join ("/".intercalate (names ++ [y])) z) =
            (membersOf (names ++ [y] ++ [z]) nodes, .ok ()) ∧
                Lists d.tree (k ++ [y] ++ [z]) nodes := by
        intro z hz
        have hz' := Tree.mem_names_iff.1 hz
        obtain ⟨n', hn'⟩ := Option.ne_none_iff_exists'.1 hz'
        have hname : IsPlain z := hchild.plain [z] hz' z (by simp)
        rw [Path.join_plain (Path.isBase_of_plain hn hne) hname.slash]
        refine ih hchild (fun p hp => ?_) hn' (by simp)
        rcases List.mem_append.1 hp with hp | hp
        · exact hn p hp
        · exact List.mem_singleton.1 hp ▸ hname
      obtain ⟨nodes, hpack, hlists⟩ :=
        packTree_of_children hchild hget (packDirectory_ok hn hne hfind) hchildren
      refine ⟨_, ?_, hlists⟩
      unfold packChild Disk.isDir
      rw [hfind, membersOf, List.map_cons, List.append_nil]
      exact hpack

/-! ## The directory that a tarball is named after -/

/-- The names that lead to it; it may be the base itself. -/
def topNames (name : String) : List String := if name = "" then [] else [name]

/-- Its own member. -/
def topMembers (name : String) (m : Nat) : List (Tar.Member Content) :=
  if name = "" then [] else [memberOf [name] (.dir m)]

theorem isPlain_topNames (hname : name = "" ∨ IsPlain name) : ∀ p ∈ topNames name, IsPlain p := by
  intro p hp
  unfold topNames at hp
  split at hp
  · exact absurd hp List.not_mem_nil
  · next hempty => exact List.mem_singleton.1 hp ▸ hname.resolve_left hempty

theorem join_top (hname : name = "" ∨ IsPlain name) (hy : '/' ∉ y.toList) :
    Path.join name y = "/".intercalate (topNames name ++ [y]) := by
  rcases hname with rfl | hname
  · rw [show topNames "" = [] from rfl, List.nil_append, String.intercalate_singleton]
    simp [Path.join]
  · have hplain : ∀ p ∈ [name], IsPlain p := by simpa using hname
    have hjoin := Path.join_plain (Path.isBase_of_plain hplain (by simp)) hy
    rwa [String.intercalate_singleton, ← show topNames name = [name] from if_neg hname.ne_empty]
      at hjoin

theorem packDirectory_top (hname : name = "" ∨ IsPlain name)
    (hfind : d.find path true = .ok (k, .dir m)) :
    packDirectory d path name = (topMembers name m, .ok ()) := by
  rcases hname with rfl | hname
  · rfl
  · have hplain : ∀ p ∈ [name], IsPlain p := by simpa using hname
    have hdirectory := packDirectory_ok hplain (by simp) hfind
    rwa [String.intercalate_singleton, show [memberOf [name] (.dir m)] = topMembers name m from
      (if_neg hname.ne_empty).symm] at hdirectory

/-- **Packing** a directory. It is packed with all below it. -/
theorem packTree_ok (h : Packable d path k (depth + 1)) (hname : name = "" ∨ IsPlain name)
    (hdir : d.tree.get? k = some (.dir m)) :
    ∃ nodes, packTree d (depth + 1) path name =
      (topMembers name m ++ membersOf (topNames name) nodes, .ok ()) ∧
      Lists d.tree k (([], .dir m) :: nodes) := by
  refine packTree_of_children h hdir (packDirectory_top hname (h.find hdir)) fun y hy => ?_
  have hy' := Tree.mem_names_iff.1 hy
  obtain ⟨n, hn⟩ := Option.ne_none_iff_exists'.1 hy'
  have hplain : IsPlain y := h.plain [y] hy' y (by simp)
  rw [join_top hname hplain.slash]
  refine packChild_ok h (fun p hp => ?_) hn
  rcases List.mem_append.1 hp with hp | hp
  · exact isPlain_topNames hname p hp
  · exact List.mem_singleton.1 hp ▸ hplain

/-- No path that fits leads deeper than a directory is packed. -/
theorem shallow_of_fits {r : List String} (hr : ∀ p ∈ r, IsPlain p)
    (hfits : Fits (r.foldl Path.join path)) : r.length < Disk.pathLimit :=
  Nat.lt_of_le_of_lt (Path.length_le_foldl_join path hr) hfits.size_lt

/-! ## A directory in a scratch directory -/

theorem locate_top (hs : Scratch d base l) (hname : name = "" ∨ IsPlain name)
    (hfits : Fits (Path.join ("/".intercalate base) name)) (f : Bool) :
    d.locate (Path.join ("/".intercalate base) name) f = .ok (l ++ topNames name) := by
  rcases hname with rfl | hname
  · rw [Path.join_plain hs.isBase (by simp)] at hfits ⊢
    obtain ⟨m, hdir⟩ := hs.dir
    obtain ⟨budget, hlocate⟩ := hs.locate (by simp) (by simp) hfits f
    rw [hlocate, Tree.walk_of_trail (Tree.trail_empty hdir (by simp) f),
      show topNames "" = [] from rfl, List.append_nil]
    rfl
  · rw [Path.join_plain hs.isBase hname.slash] at hfits ⊢
    rw [show topNames name = [name] from if_neg hname.ne_empty]
    have hn : Names base ([] ++ [name]) := ⟨by simpa using hname, hfits⟩
    have hlocate := hs.locate_append hn hs.isDirs_nil f
    rwa [List.append_nil, List.nil_append] at hlocate

theorem packable_top (hs : Scratch d base l) (hname : name = "" ∨ IsPlain name)
    (hdir : d.tree.get? (l ++ topNames name) = some (.dir m))
    (hplain : ∀ r, d.tree.get? (l ++ topNames name ++ r) ≠ none → ∀ p ∈ r, IsPlain p)
    (hfits : ∀ r, d.tree.get? (l ++ topNames name ++ r) ≠ none →
      Fits (r.foldl Path.join (Path.join ("/".intercalate base) name))) :
    Packable d (Path.join ("/".intercalate base) name) (l ++ topNames name) Disk.pathLimit := by
  have hself : Fits (Path.join ("/".intercalate base) name) := hfits [] (by simp [hdir])
  refine ⟨⟨?_, m, hdir⟩, fun r target => ?_, fun q r hr hsome => ?_, hs.nodup_below _, hplain,
    fun r hr => shallow_of_fits (hplain r hr) (hfits r hr), hfits⟩
  · rw [if_neg hself.ne_empty]
    exact locate_top hs hname hself true
  · rw [List.append_assoc]
    exact hs.noLink _ target
  · rw [List.append_assoc l] at hsome ⊢
    exact hs.closed _ r hr hsome

/-! ## The tarball -/

/-- The tarball is emptied first, and in the end holds what was packed, whether or not that is
all. -/
theorem createTarball_eq {w : Workspace} {tarball dirName : String} {la : Location} (hne : la ≠ [])
    (hempty : w.disk.write tarball (.tar []) = .ok (w.disk.put la (.file (.tar []) m)))
    (hstays : (w.disk.put la (.file (.tar []) m)).locate tarball true = .ok la)
    {base : String} {packed : Packed}
    (hpack : packTree (w.disk.put la (.file (.tar []) m)) Disk.pathLimit
      (Path.join base dirName) dirName = packed) :
    createTarball tarball base dirName w =
      Act.ofExcept packed.2 { w with disk := w.disk.put la (.file (.tar packed.1) m) } := by
  have hfilled : (w.disk.put la (.file (.tar []) m)).write tarball (.tar packed.1) =
      .ok (w.disk.put la (.file (.tar packed.1) m)) := by
    refine Disk.write_ok.2 ⟨la, hstays, Or.inr ⟨.tar [], m, ?_, ?_⟩⟩
    · exact (Tree.get?_put hne _ la).trans (if_pos rfl)
    · exact congrArg (fun t => { w.disk with tree := t }) (Tree.put_put w.disk.tree la _ _).symm
  unfold createTarball
  rw [Act.bind_of_ok (Act.change_of_ok (f := (·.write tarball (.tar []))) hempty)]
  subst hpack
  exact Act.bind_of_ok (Act.change_of_ok hfilled)

end Archiver.Native
end Rebadge
