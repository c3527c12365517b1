import Rebadge.Proofs.Disk.Inner

/-!
# Two disks with the same directory

A disk is kept by a directory without links if all else on it stays as it was, apart from the
contents of certain files (`Kept`). Two such disks may differ, but not in the directory nor in these
files (`Twins`). What an operation on an inner path does and how it ends is then the same on both,
and they stay such a pair.
-/

namespace Rebadge.Disk

open Rebadge.Path (IsPlain IsBase)
open Rebadge.Tree (Clear Spot Around stays)

variable {bases : List (List String)} {l k : Location} {own : List Location}
  {o o' d d' : Disk} {path : String}

/-! ## The disks -/

/-- The path of the pieces leads to the location whatever is in the directory there. -/
structure Reaches (o : Disk) (base : List String) (l : Location) : Prop where
  isBase : IsBase base
  walk : ∀ t, Around l o.tree t →
    ∀ f, t.walk f Tree.maxLinks (o.startOf ("/".intercalate base)) base = .ok l

theorem Scratch.reaches {base : List String} (h : Scratch d base l) :
    Reaches d base l := ⟨h.isBase, h.reach⟩

/-- The disk holds a directory without links that certain paths lead to. Elsewhere only the contents
of the own files may have changed. -/
structure Kept (bases : List (List String)) (l : Location) (own : List Location) (o d : Disk) :
    Prop where
  reach : ∀ base ∈ bases, Reaches o base l
  clear : Clear d.tree l
  apart : ∀ k ∈ own, ¬ l <+: k
  files : ∀ k ∈ own, (∃ c m, o.tree.get? k = some (.file c m)) ∧
    ∃ c m, d.tree.get? k = some (.file c m)
  outside : ∀ k, ¬ l <+: k → k ∉ own → d.tree.get? k = o.tree.get? k
  cwd : d.cwd = o.cwd

theorem Kept.around (h : Kept bases l own o d) : Around l o.tree d.tree := by
  refine ⟨fun j n hj hn => ?_, h.clear.dir⟩
  by_cases hown : j ∈ own
  · obtain ⟨⟨c, m, hfile⟩, c', m', hfile'⟩ := h.files j hown
    rw [hfile, Option.some.injEq] at hn
    exact ⟨_, hfile', hn ▸ .file ..⟩
  · exact ⟨n, by rw [h.outside j hj hown, hn], .refl n⟩

theorem Kept.isBase (h : Kept bases l own o d) : ∀ base ∈ bases, IsBase base :=
  fun base hbase => (h.reach base hbase).isBase

theorem Kept.scratch (h : Kept bases l own o d) {base : List String} (hbase : base ∈ bases) :
    Scratch d base l := by
  refine ⟨h.isBase base hbase, fun t ht f => ?_, h.clear.dir, h.clear.noLink,
    h.clear.closed, h.clear.nodup⟩
  have hwalk := (h.reach base hbase).walk t (h.around.trans ht) f
  rwa [startOf_of_cwd h.cwd]

theorem Kept.arrives (h : Kept bases l own o d) {base : List String}
    (hbase : base ∈ bases) (f : Bool) :
    d.tree.walk f Tree.maxLinks (d.startOf ("/".intercalate base)) base = .ok l :=
  (h.scratch hbase).arrives f

/-- The disks hold the same at the directory and in the own files. -/
structure Twins (bases : List (List String)) (l : Location) (own : List Location)
    (o o' d d' : Disk) : Prop where
  left : Kept bases l own o d
  right : Kept bases l own o' d'
  same : ∀ k, l <+: k ∨ k ∈ own → d.tree.get? k = d'.tree.get? k

theorem Kept.twins (h : Kept bases l own o d) : Twins bases l own o o d d := ⟨h, h, fun _ _ => rfl⟩

theorem Twins.below (h : Twins bases l own o o' d d') (r : Location) :
    d.tree.get? (l ++ r) = d'.tree.get? (l ++ r) :=
  h.same _ (Or.inl (List.prefix_append l r))

theorem Twins.get? (h : Twins bases l own o o' d d') (hk : Spot d.tree l k) :
    d.tree.get? k = d'.tree.get? k :=
  h.same _ (Or.inl hk.below)

theorem Twins.spot (h : Twins bases l own o o' d d') (hk : Spot d.tree l k) : Spot d'.tree l k := by
  rcases hk with rfl | ⟨r, name, rfl, hname, m, hdir⟩
  · exact Or.inl rfl
  · exact Or.inr ⟨r, name, rfl, hname, m, by rw [← h.below, hdir]⟩

theorem Kept.owning (h : Kept bases l [] o d) (hk : ¬ l <+: k)
    (hfile : ∃ c m, o.tree.get? k = some (.file c m)) : Kept bases l [k] o d := by
  refine ⟨h.reach, h.clear, fun j hj => ?_, fun j hj => ?_,
    fun j hj _ => h.outside j hj List.not_mem_nil, h.cwd⟩
  · rwa [List.mem_singleton.1 hj]
  · rw [List.mem_singleton.1 hj, h.outside k hk List.not_mem_nil]
    exact ⟨hfile, hfile⟩

theorem Twins.owning (h : Twins bases l [] o o' d d') (hk : ¬ l <+: k)
    (hfile : ∃ c m, o.tree.get? k = some (.file c m)) (hsame : o.tree.get? k = o'.tree.get? k) :
    Twins bases l [k] o o' d d' := by
  refine ⟨h.left.owning hk hfile, h.right.owning hk (hsame ▸ hfile), fun j hj => ?_⟩
  rcases hj with hj | hj
  · exact h.same j (Or.inl hj)
  · rw [List.mem_singleton.1 hj, h.left.outside k hk List.not_mem_nil,
      h.right.outside k hk List.not_mem_nil, hsame]

/-! ## Looking -/

theorem Kept.walks (h : Kept bases l own o d) {base names : List String} (hbase : base ∈ bases)
    (hslash : ∀ p ∈ names, '/' ∉ p.toList) (hne : names ≠ []) (f : Bool) :
    ∃ b, d.tree.walk f Tree.maxLinks (d.startOf ("/".intercalate (base ++ names))) (base ++ names) =
      d.tree.walk f b l names := by
  obtain ⟨m, hdir⟩ := h.clear.dir
  rw [startOf_append (h.isBase base hbase) hslash]
  exact Tree.walk_append hdir (h.arrives hbase true) f hne

theorem Twins.walk_eq (h : Twins bases l own o o' d d') {base names : List String}
    (hbase : base ∈ bases) (hslash : ∀ p ∈ names, '/' ∉ p.toList) (hstays : stays 0 names = true)
    (f : Bool) :
    d.tree.walk f Tree.maxLinks (d.startOf ("/".intercalate (base ++ names))) (base ++ names) =
        d'.tree.walk f Tree.maxLinks (d'.startOf ("/".intercalate (base ++ names)))
        (base ++ names) ∧
      ∀ k, d.tree.walk f Tree.maxLinks (d.startOf ("/".intercalate (base ++ names)))
        (base ++ names) = .ok k →
        Spot d.tree l k := by
  by_cases hne : names = []
  · rw [hne, List.append_nil, h.left.arrives hbase, h.right.arrives hbase]
    exact ⟨rfl, fun k hk => Or.inl (Except.ok.inj hk).symm⟩
  · obtain ⟨b, hb⟩ := h.left.walks hbase hslash hne f
    obtain ⟨b', hb'⟩ := h.right.walks hbase hslash hne f
    rw [hb, hb']
    exact ⟨h.left.clear.walk_congr hslash h.below hstays f b b',
      fun k hk => h.left.clear.walks hslash hstays hk⟩

theorem Twins.locate (h : Twins bases l own o o' d d') (hp : Inner bases path) (f : Bool) :
    d.locate path f = d'.locate path f ∧ ∀ k, d.locate path f = .ok k → Spot d.tree l k := by
  obtain ⟨names, base, hbase, hslash, hstays, rfl⟩ := hp
  have hb := h.left.isBase base hbase
  have hsplit : Text.split ("/".intercalate (base ++ names)) '/' = base ++ names :=
    Text.split_intercalate (by simp [hb.ne_nil]) (slash_append hb hslash)
  have hwalk := h.walk_eq hbase hslash hstays f
  unfold startOf at hwalk
  unfold Disk.locate
  rw [hsplit]
  split
  · exact ⟨rfl, by simp⟩
  split
  · exact ⟨rfl, by simp⟩
  split
  · exact ⟨rfl, by simp⟩
  rw [hwalk.1]
  refine ⟨rfl, fun k hk => hwalk.2 k ?_⟩
  rw [hwalk.1]
  exact except_mapError_ok.1 hk

theorem Twins.find (h : Twins bases l own o o' d d') (hp : Inner bases path) (f : Bool) :
    d.find path f = d'.find path f ∧ ∀ k n, d.find path f = .ok (k, n) → Spot d.tree l k ∧
    d.tree.get? k = some n := by
  obtain ⟨heq, hspot⟩ := h.locate hp f
  refine ⟨?_, fun k n hfind => ⟨hspot k (find_ok.1 hfind).1, (find_ok.1 hfind).2⟩⟩
  unfold Disk.find
  rw [← heq]
  cases hlocate : d.locate path f with
  | error x => rfl
  | ok k =>
    dsimp only [bind, Except.bind]
    rw [h.get? (hspot k hlocate)]

theorem Twins.isDir (h : Twins bases l own o o' d d') (hp : Inner bases path) :
    d.isDir path = d'.isDir path := by
  unfold Disk.isDir
  rw [(h.find hp true).1]

theorem Twins.read (h : Twins bases l own o o' d d') (hp : Inner bases path) :
    d.read path = d'.read path := by
  unfold Disk.read
  rw [(h.find hp true).1]

theorem Twins.readText (h : Twins bases l own o o' d d') (hp : Inner bases path) :
    d.readText path = d'.readText path := by
  unfold Disk.readText
  rw [h.read hp]

theorem Twins.names (h : Twins bases l own o o' d d') (hk : l <+: k) :
    d.tree.names k = d'.tree.names k := by
  obtain ⟨r, rfl⟩ := hk
  exact h.left.clear.names_congr h.right.clear h.below r

theorem Twins.list (h : Twins bases l own o o' d d') (hp : Inner bases path) :
    d.list path = d'.list path := by
  obtain ⟨heq, hspot⟩ := h.find hp true
  unfold Disk.list
  rw [← heq]
  cases hfind : d.find path true with
  | error x => rfl
  | ok p =>
    obtain ⟨k, n⟩ := p
    cases n with
    | file c m => rfl
    | link target => rfl
    | dir m =>
      show Except.ok (d.tree.names k) = Except.ok (d'.tree.names k)
      rw [h.names (hspot k _ hfind).1.below]

/-! ## Changing -/

/-- The node can be put there. -/
structure Fitting (t : Tree) (l k : Location) (n : Node) : Prop where
  spot : Spot t l k
  link : ∀ target, n ≠ .link target
  dir : n.isDir = true ∨ k ≠ l ∧ ∀ m, t.get? k ≠ some (.dir m)

theorem Kept.fitting (h : Kept bases l own o d) (hk : Spot d.tree l k) {n : Node}
    (hlink : ∀ target, n ≠ .link target) (hnot : ∀ m, d.tree.get? k ≠ some (.dir m)) :
    Fitting d.tree l k n := by
  refine ⟨hk, hlink, Or.inr ⟨?_, hnot⟩⟩
  rintro rfl
  obtain ⟨m, hm⟩ := h.clear.dir
  exact hnot m hm

/-- What changes the directory only keeps the rest. -/
theorem Kept.of_outside (h : Kept bases l own o d) {t : Tree} (hclear : Tree.Clear t l)
    (ht : Tree.Outside l d.tree t) : Kept bases l own o { d with tree := t } := by
  refine ⟨h.reach, hclear, h.apart, fun j hj => ?_, fun j hj hown => ?_, h.cwd⟩
  · rw [ht j (h.apart j hj)]
    exact h.files j hj
  · rw [ht j hj, h.outside j hj hown]

theorem Kept.put (h : Kept bases l own o d) {n : Node} (hn : Fitting d.tree l k n) :
    Kept bases l own o (d.put k n) :=
  h.of_outside (h.clear.put hn.spot hn.link hn.dir) (h.clear.outside_put hn.spot n)

theorem Twins.put (h : Twins bases l own o o' d d') {n : Node} (hn : Fitting d.tree l k n) :
    Twins bases l own o o' (d.put k n) (d'.put k n) := by
  have hne := hn.spot.ne_nil h.left.clear.ne_nil
  refine ⟨h.left.put hn, h.right.put ⟨h.spot hn.spot, hn.link, ?_⟩, fun j hj => ?_⟩
  · rw [← h.get? hn.spot]
    exact hn.dir
  · show (d.tree.put k n).get? j = (d'.tree.put k n).get? j
    rw [Tree.get?_put hne, Tree.get?_put hne, h.same j hj]

theorem Kept.put_own (h : Kept bases l own o d) (hk : k ∈ own) (c : Content) (m : Nat) :
    Kept bases l own o (d.put k (.file c m)) := by
  obtain ⟨-, c', m', hfile⟩ := h.files k hk
  have hne := Tree.ne_nil_of_file hfile
  have hget := Tree.get?_put (t := d.tree) hne (.file c m)
  have hsame : ∀ r, (d.put k (.file c m)).tree.get? (l ++ r) = d.tree.get? (l ++ r) := by
    intro r
    refine (hget _).trans (if_neg ?_)
    rintro rfl
    exact h.apart _ hk (List.prefix_append l r)
  have hclear := h.clear
  refine ⟨h.reach, ⟨hclear.ne_nil, ?_, fun r => ?_, fun q r hr => ?_, fun r => ?_,
    Tree.nodup_put hclear.nodup k _⟩, h.apart, fun j hj => ?_, fun j hj hown => ?_, h.cwd⟩
  · have hself := hsame []
    rw [List.append_nil] at hself
    rw [hself]
    exact hclear.dir
  · rw [hsame]
    exact hclear.noLink r
  · rw [hsame, List.append_assoc, hsame, ← List.append_assoc]
    exact hclear.closed q r hr
  · rw [hsame]
    exact hclear.plain r
  · refine ⟨(h.files j hj).1, ?_⟩
    show ∃ c m, (d.tree.put k _).get? j = _
    rw [hget]
    split
    · exact ⟨c, m, rfl⟩
    · exact (h.files j hj).2
  · show (d.tree.put k _).get? j = _
    rw [hget, if_neg (by rintro rfl; exact hown hk), h.outside j hj hown]

theorem Twins.put_own (h : Twins bases l own o o' d d') (hk : k ∈ own) (c : Content) (m : Nat) :
    Twins bases l own o o' (d.put k (.file c m)) (d'.put k (.file c m)) := by
  obtain ⟨-, c', m', hfile⟩ := h.left.files k hk
  have hne := Tree.ne_nil_of_file hfile
  refine ⟨h.left.put_own hk c m, h.right.put_own hk c m, fun j hj => ?_⟩
  show (d.tree.put k _).get? j = (d'.tree.put k _).get? j
  rw [Tree.get?_put hne, Tree.get?_put hne, h.same j hj]

theorem Kept.drop (h : Kept bases l own o d) {r : Location} (hr : r ≠ []) :
    Kept bases l own o { d with tree := d.tree.drop (l ++ r) } :=
  h.of_outside (h.clear.drop hr) (Tree.outside_drop (by simp [hr]))

theorem Twins.drop (h : Twins bases l own o o' d d') {r : Location} (hr : r ≠ []) :
    Twins bases l own o o' { d with tree := d.tree.drop (l ++ r) }
    { d' with tree := d'.tree.drop (l ++ r) } := by
  refine ⟨h.left.drop hr, h.right.drop hr, fun j hj => ?_⟩
  rw [Tree.get?_drop (by simp [hr]), Tree.get?_drop (by simp [hr]), h.same j hj]

theorem Kept.move (h : Kept bases l own o d) {r q : Location} (hr : r ≠ []) (hq : q ≠ [])
    (hspot : Spot d.tree l (l ++ q)) (hnot : ¬ l ++ r <+: l ++ q) :
    Kept bases l own o { d with tree := d.tree.move (l ++ r) (l ++ q) } :=
  h.of_outside (h.clear.move hr hq hspot hnot) (Tree.outside_move (by simp [hr]) (by simp [hq]))

theorem Twins.move (h : Twins bases l own o o' d d') {r q : Location} (hr : r ≠ []) (hq : q ≠ [])
    (hspot : Spot d.tree l (l ++ q)) (hnot : ¬ l ++ r <+: l ++ q) :
    Twins bases l own o o' { d with tree := d.tree.move (l ++ r) (l ++ q) }
      { d' with tree := d'.tree.move (l ++ r) (l ++ q) } := by
  have hs : l ++ r ≠ [] := by simp [hr]
  have ht : l ++ q ≠ [] := by simp [hq]
  refine ⟨h.left.move hr hq hspot hnot, h.right.move hr hq (h.spot hspot) hnot, fun j hj => ?_⟩
  by_cases hpre : l ++ q <+: j
  · obtain ⟨rest, rfl⟩ := hpre
    rw [Tree.get?_move hs ht, Tree.get?_move hs ht, List.append_assoc, h.below]
  · rw [Tree.get?_move_other hs ht hpre, Tree.get?_move_other hs ht hpre, h.same j hj]

/-! ## Outcomes -/

/-- Both steps fail in the same way, or end with a pair of the relation. -/
inductive Both (R : Disk → Disk → Prop) : Except IoError Disk → Except IoError Disk → Prop where
  | ok {d d' : Disk} (h : R d d') : Both R (.ok d) (.ok d')
  | error (e : IoError) : Both R (.error e) (.error e)

theorem Twins.write (h : Twins bases l own o o' d d') (hp : Inner bases path) (c : Content) :
    Both (Twins bases l own o o') (d.write path c) (d'.write path c) := by
  obtain ⟨heq, hspot⟩ := h.locate hp true
  unfold Disk.write
  rw [← heq]
  cases hlocate : d.locate path true with
  | error e => exact .error e
  | ok k =>
    have hk := hspot k hlocate
    simp only [bind, Except.bind, ← h.get? hk]
    cases hget : d.tree.get? k with
    | none =>
      simp only
      split
      · exact .error _
      · exact .ok (h.put (h.left.fitting hk (by simp) (by simp [hget])))
    | some n =>
      cases n with
      | dir m => exact .error _
      | link target => exact .error _
      | file c' m => exact .ok (h.put (h.left.fitting hk (by simp) (by simp [hget])))

theorem Twins.create (h : Twins bases l own o o' d d') (hp : Inner bases path) {n : Node}
    (hn : ∀ target, n ≠ .link target) :
    Both (Twins bases l own o o') (d.create path n) (d'.create path n) := by
  obtain ⟨heq, hspot⟩ := h.locate hp false
  unfold Disk.create
  rw [← heq]
  cases hlocate : d.locate path false with
  | error e => exact .error e
  | ok k =>
    have hk := hspot k hlocate
    simp only [bind, Except.bind, ← h.get? hk]
    cases hget : d.tree.get? k with
    | some n => exact .error _
    | none => exact .ok (h.put (h.left.fitting hk hn (by simp [hget])))

theorem Twins.makeDir (h : Twins bases l own o o' d d') (hp : Inner bases path) :
    Both (Twins bases l own o o') (d.makeDir path) (d'.makeDir path) := h.create hp (by simp)

theorem Twins.setMode (h : Twins bases l own o o' d d') (hp : Inner bases path) (mode : Nat) :
    Both (Twins bases l own o o') (d.setMode path mode) (d'.setMode path mode) := by
  obtain ⟨heq, hspot⟩ := h.find hp true
  unfold Disk.setMode
  rw [← heq]
  cases hfind : d.find path true with
  | error e => exact .error e
  | ok p =>
    obtain ⟨k, n⟩ := p
    obtain ⟨hk, hget⟩ := hspot k n hfind
    cases n with
    | link target => exact .error _
    | dir m =>
      simp only [bind, Except.bind]
      rw [if_neg (hk.ne_nil h.left.clear.ne_nil), if_neg (hk.ne_nil h.left.clear.ne_nil)]
      exact .ok (h.put ⟨hk, by simp, Or.inl rfl⟩)
    | file c m => exact .ok (h.put (h.left.fitting hk (by simp) (by simp [hget])))

theorem Twins.unlink (h : Twins bases l own o o' d d') (hp : Inner bases path) :
    Both (Twins bases l own o o') (d.unlink path) (d'.unlink path) := by
  obtain ⟨heq, hspot⟩ := h.find hp false
  unfold Disk.unlink
  rw [← heq]
  cases hfind : d.find path false with
  | error e => exact .error e
  | ok p =>
    obtain ⟨k, n⟩ := p
    obtain ⟨hk, hget⟩ := hspot k n hfind
    have hdropped : n.isDir = false → Twins bases l own o o' { d with tree := d.tree.drop k }
        { d' with tree := d'.tree.drop k } := by
      intro hn
      obtain ⟨r, rfl⟩ := hk.below
      refine h.drop ?_
      rintro rfl
      obtain ⟨m, hm⟩ := h.left.clear.dir
      rw [List.append_nil, hm] at hget
      cases hget
      exact absurd hn (by simp [Node.isDir])
    cases n with
    | dir m => exact .error _
    | file c m => exact .ok (hdropped rfl)
    | link target => exact .ok (hdropped rfl)

theorem Twins.rename (h : Twins bases l own o o' d d') {source target : String}
    (hs : Inner bases source) (ht : Inner bases target) :
    Both (Twins bases l own o o') (d.rename source target) (d'.rename source target) := by
  obtain ⟨hseq, hsspot⟩ := h.locate hs false
  obtain ⟨hteq, htspot⟩ := h.locate ht false
  unfold Disk.rename
  rw [← hseq, ← hteq]
  cases hsource : d.locate source false with
  | error e => exact .error e
  | ok s =>
    cases htarget : d.locate target false with
    | error e => exact .error e
    | ok t =>
      have hsk := hsspot s hsource
      have htk := htspot t htarget
      have hempty : d'.tree.isEmptyDir t = d.tree.isEmptyDir t := by
        unfold Tree.isEmptyDir
        rw [h.names htk.below]
      -- Neither place is the directory itself, since neither is below the other.
      have hmoved : ¬ s.isPrefixOf t = true → ¬ t.isPrefixOf s = true →
          Twins bases l own o o' { d with tree := d.tree.move s t }
          { d' with tree := d'.tree.move s t } := by
        intro hst hts
        rw [List.isPrefixOf_iff_prefix] at hst hts
        obtain ⟨r, rfl⟩ := hsk.below
        obtain ⟨q, rfl⟩ := htk.below
        refine h.move ?_ ?_ htk hst
        · rintro rfl
          exact hst (by rw [List.append_nil]; exact List.prefix_append l q)
        · rintro rfl
          exact hts (by rw [List.append_nil]; exact List.prefix_append l r)
      simp only [bind, Except.bind, ← h.get? hsk, ← h.get? htk, hempty]
      split
      · exact .error _
      split
      · exact .error _
      split
      · exact .error _
      split
      · exact .ok h
      split
      · exact .error _
      · next hst =>
        split
        · exact .error _
        · next hts =>
          split
          · exact .ok (hmoved hst hts)
          · split
            · exact .error _
            split
            · exact .error _
            split
            · exact .error _
            · exact .ok (hmoved hst hts)

/-! ## Making directories -/

/-- The same outcome, on a pair of disks. -/
def SameEnd (R : Disk → Disk → Prop) (x x' : Disk × Except IoError Unit) : Prop :=
  R x.1 x'.1 ∧ x.2 = x'.2

theorem Twins.ensureDir (h : Twins bases l own o o' d d') (hp : Inner bases path) :
    SameEnd (Twins bases l own o o') (d.ensureDir path) (d'.ensureDir path) := by
  have hmake := h.makeDir hp
  unfold Disk.ensureDir
  generalize d.makeDir path = x at hmake ⊢
  generalize d'.makeDir path = x' at hmake ⊢
  cases hmake with
  | ok hd => exact ⟨hd, rfl⟩
  | error e => exact ⟨h, by rw [h.isDir hp]⟩

theorem Kept.makeDir_self (h : Kept bases l own o d) {names : List String}
    (hp : Inward bases names path) (hidle : ∀ p ∈ names, Path.isIdle p = true) :
    d.makeDir path ≠ .error (.os .notFound) := by
  obtain ⟨base, hbase, hslash, -, rfl⟩ := hp
  have hb := h.isBase base hbase
  obtain ⟨m, hdir⟩ := h.clear.dir
  have hstay : ∀ b, d.tree.walk false b l names = .ok l := by
    refine fun b => Tree.walk_of_trail (Tree.trail_idle hdir (fun p hp => ?_) false)
    have hp := hidle p hp
    unfold Path.isIdle at hp
    rwa [Bool.or_eq_true, beq_iff_eq, beq_iff_eq] at hp
  have hwalk : d.tree.walk false Tree.maxLinks (d.startOf ("/".intercalate (base ++ names)))
      (base ++ names) = .ok l := by
    by_cases hne : names = []
    · rw [hne, List.append_nil]
      exact h.arrives hbase false
    · obtain ⟨b, hb⟩ := h.walks hbase hslash hne false
      rw [hb, hstay]
  have hlocate : ∀ e, d.locate ("/".intercalate (base ++ names)) false = .error e →
      e ≠ .os .notFound := by
    intro e he
    unfold startOf at hwalk
    unfold Disk.locate at he
    rw [Text.split_intercalate (by simp [hb.ne_nil]) (slash_append hb hslash), hwalk,
      if_neg (Path.intercalate_append_ne_empty hb names)] at he
    split at he
    · rw [← Except.error.inj he]
      simp
    split at he
    · rw [← Except.error.inj he]
      simp
    · simp [Except.mapError] at he
  cases hloc : d.locate ("/".intercalate (base ++ names)) false with
  | error e =>
    rw [makeDir_error hloc, ne_eq, Except.error.injEq]
    exact hlocate e hloc
  | ok k =>
    have hk := (fits_of_locate hloc).2
    rw [Text.split_intercalate (by simp [hb.ne_nil]) (slash_append hb hslash), hwalk,
      Except.ok.injEq] at hk
    rw [makeDir_exists hloc (hk ▸ hdir)]
    simp

theorem Twins.ensureAncestors_cons (h : Twins bases l own o o' d d') (hp : Inner bases path)
    {above : List String} (habove : (d.makeDir path ≠ .error (.os .notFound)) ∨
      SameEnd (Twins bases l own o o') (d.ensureAncestors above) (d'.ensureAncestors above)) :
    SameEnd (Twins bases l own o o') (d.ensureAncestors (path :: above))
    (d'.ensureAncestors (path :: above)) := by
  rw [Disk.ensureAncestors, Disk.ensureAncestors]
  by_cases hempty : path = ""
  · rw [if_pos hempty, if_pos hempty]
    exact ⟨h, rfl⟩
  rw [if_neg hempty, if_neg hempty]
  have hmake := h.makeDir hp
  generalize d.makeDir path = x at hmake habove ⊢
  generalize d'.makeDir path = x' at hmake ⊢
  cases hmake with
  | ok hd => exact h.ensureDir hp
  | error e =>
    by_cases he : e = .os .notFound
    · rcases habove with hnot | habove
      · exact absurd (congrArg Except.error he) hnot
      · subst he
        generalize d.ensureAncestors above = y at habove ⊢
        generalize d'.ensureAncestors above = y' at habove ⊢
        obtain ⟨d₁, r⟩ := y
        obtain ⟨d₁', r'⟩ := y'
        obtain ⟨hd, hr⟩ := habove
        change r = r' at hr
        subst hr
        cases r with
        | ok u => exact Twins.ensureDir hd hp
        | error e => exact ⟨hd, rfl⟩
    · have hend := h.ensureDir hp
      split
      · next hnot => exact absurd (Except.error.inj hnot) he
      · exact hend

theorem Twins.ensureAncestors (h : Twins bases l own o o' d d') (hp : Inner bases path) (n : Nat) :
    SameEnd (Twins bases l own o o') (d.ensureAncestors (path :: Path.above n path))
      (d'.ensureAncestors (path :: Path.above n path)) := by
  induction n generalizing path with
  | zero => exact h.ensureAncestors_cons hp (Or.inr ⟨h, rfl⟩)
  | succ n ih =>
    obtain ⟨names, hnames⟩ := hp
    by_cases hidle : ∃ p ∈ names, Path.isIdle p = false
    · obtain ⟨q, hq, hinner⟩ := hnames.parent h.left.isBase hidle
      rw [Path.above, hq]
      exact h.ensureAncestors_cons ⟨names, hnames⟩ (Or.inr (ih hinner))
    · refine h.ensureAncestors_cons ⟨names, hnames⟩
        (Or.inl (h.left.makeDir_self hnames fun p hp => ?_))
      exact Decidable.byContradiction fun hnot => hidle ⟨p, hp, by simpa using hnot⟩

theorem Twins.ensureDirs (h : Twins bases l own o o' d d') (hp : Inner bases path) :
    SameEnd (Twins bases l own o o') (d.ensureDirs path) (d'.ensureDirs path) :=
  h.ensureAncestors hp path.length

end Rebadge.Disk
