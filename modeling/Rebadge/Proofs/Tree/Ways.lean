import Mathlib.Data.List.Basic
import Mathlib.Data.List.Induction
import Rebadge.Disk
import Rebadge.Proofs.Tree.Below

/-!
# Changes below a directory

A new node adds one location (`keys_put`), a way of directories adds directories along the way only
(`get?_makeWay`), and a change below a directory is one around which all else stays (`Around`).
-/

namespace Rebadge.Tree

/-! ## Locations with a node -/

/-- The locations of the nodes. -/
def keys (t : Tree) : List Location := t.nodes.map Prod.fst

theorem nodeAt_eq_none_iff {l : Location} {nodes : List (Location × Node)} :
    nodeAt l nodes = none ↔ l ∉ nodes.map Prod.fst := by
  induction nodes with
  | nil => simp [nodeAt]
  | cons p nodes ih =>
    obtain ⟨k, n⟩ := p
    rw [nodeAt]
    by_cases hk : k = l
    · simp [hk]
    · rw [if_neg hk, ih, List.map_cons, List.mem_cons, not_or]
      exact ⟨fun h => ⟨Ne.symm hk, h⟩, fun h => h.2⟩

theorem get?_eq_none_iff {t : Tree} {l : Location} (hl : l ≠ []) :
    t.get? l = none ↔ l ∉ t.keys := by
  unfold get? keys
  rw [if_neg hl, nodeAt_eq_none_iff]

theorem keys_putNode (l : Location) (n : Node) (nodes : List (Location × Node)) :
    (putNode l n nodes).map Prod.fst =
      if l ∈ nodes.map Prod.fst then nodes.map Prod.fst else nodes.map Prod.fst ++ [l] := by
  induction nodes with
  | nil => rfl
  | cons p nodes ih =>
    obtain ⟨k, m⟩ := p
    rw [putNode]
    by_cases hk : k = l
    · simp [hk]
    · rw [if_neg hk, List.map_cons, ih]
      by_cases hmem : l ∈ nodes.map Prod.fst
      · rw [if_pos hmem, if_pos (by simp [hmem])]
        rfl
      · rw [if_neg hmem, if_neg
          (by simp only [List.map_cons, List.mem_cons, not_or]; exact ⟨Ne.symm hk, hmem⟩)]
        rfl

theorem keys_put (t : Tree) (l : Location) (n : Node) :
    (t.put l n).keys = if l ∈ t.keys then t.keys else t.keys ++ [l] :=
  keys_putNode l n t.nodes

theorem nodup_keys_append {t : Tree} {l : Location} (h : (t.keys.filter l.isPrefixOf).Nodup)
    (r : Location) : (t.keys.filter (l ++ r).isPrefixOf).Nodup := by
  refine h.sublist (List.monotone_filter_right _ fun k hk => ?_)
  rw [List.isPrefixOf_iff_prefix] at hk ⊢
  exact (List.prefix_append l r).trans hk

theorem putNode_putNode (l : Location) (n m : Node) (nodes : List (Location × Node)) :
    putNode l n (putNode l m nodes) = putNode l n nodes := by
  induction nodes with
  | nil => simp [putNode]
  | cons p nodes ih =>
    obtain ⟨k, n'⟩ := p
    by_cases hk : k = l
    · simp [putNode, hk]
    · simp [putNode, hk, ih]

theorem put_put (t : Tree) (l : Location) (n m : Node) : (t.put l m).put l n = t.put l n := by
  unfold put
  rw [putNode_putNode]

/-- The name of a location right below another one. -/
def nameBelow? (l k : Location) : Option String :=
  match l.isPrefixOf? k with
  | some [name] => some name
  | _ => none

theorem names_eq (t : Tree) (l : Location) :
    t.names l = Sorted.sort Text.le (t.keys.filterMap (nameBelow? l)) := by
  unfold names keys
  rw [List.filterMap_map]
  rfl

theorem names_congr {t t' : Tree} (h : t.keys = t'.keys) (l : Location) :
    t.names l = t'.names l := by
  rw [names_eq, names_eq, h]

theorem extends_put {t : Tree} {l : Location} (hl : l ≠ []) (hnone : t.get? l = none) (n : Node) :
    Extends t (t.put l n) := by
  intro k m hk
  refine ⟨m, ?_, .refl m⟩
  rw [get?_put hl, if_neg, hk]
  rintro rfl
  rw [hk] at hnone
  exact absurd hnone (by simp)

/-- The location is a directory in the second tree, and the nodes of the first one that are not
below it are there, up to the contents of files. -/
structure Around (l : Location) (t t' : Tree) : Prop where
  others : ∀ k n, ¬ l <+: k → t.get? k = some n → ∃ n', t'.get? k = some n' ∧ n.Like n'
  dir : ∃ m, t'.get? l = some (.dir m)

theorem Around.refl {t : Tree} {l : Location} (h : ∃ m, t.get? l = some (.dir m)) : Around l t t :=
  ⟨fun _ n _ hn => ⟨n, hn, .refl n⟩, h⟩

theorem Around.trans {t t' t'' : Tree} {l : Location} (h : Around l t t') (h' : Around l t' t'') :
    Around l t t'' := by
  refine ⟨fun k n hk hn => ?_, h'.dir⟩
  obtain ⟨n', hn', hlike⟩ := h.others k n hk hn
  obtain ⟨n'', hn'', hlike'⟩ := h'.others k n' hk hn'
  exact ⟨n'', hn'', hlike.trans hlike'⟩

theorem Extends.around {t t' : Tree} {l : Location} (h : Extends t t')
    (hl : ∃ m, t.get? l = some (.dir m)) : Around l t t' := by
  obtain ⟨m, hm⟩ := hl
  exact ⟨fun k n _ hn => h k n hn, h.dir hm⟩

/-- Whatever has something below it is a directory. -/
def WellFormed (t : Tree) : Prop :=
  ∀ k r, r ≠ [] → t.get? (k ++ r) ≠ none → ∃ m, t.get? k = some (.dir m)

theorem WellFormed.dropLast {t : Tree} (h : t.WellFormed) {l : Location}
    (hl : ∃ m, t.get? l = some (.dir m)) : ∃ m, t.get? l.dropLast = some (.dir m) := by
  obtain ⟨m, hm⟩ := hl
  by_cases hnil : l = []
  · subst hnil
    exact ⟨m, hm⟩
  · refine h l.dropLast [l.getLast hnil] (by simp) ?_
    rw [List.dropLast_concat_getLast hnil, hm]
    simp

/-- It is enough that every node lies in a directory. -/
theorem wellFormed_of_parents {t : Tree}
    (h : ∀ p ∈ t.nodes, (t.get? p.1.dropLast).any Node.isDir = true) : t.WellFormed := by
  have hparent : ∀ k, k ≠ [] → t.get? k ≠ none → ∃ m, t.get? k.dropLast = some (.dir m) := by
    intro k hk hsome
    rw [ne_eq, get?_eq_none_iff hk, Decidable.not_not] at hsome
    obtain ⟨p, hp, rfl⟩ := List.mem_map.1 hsome
    have hdir := h p hp
    cases hget : t.get? p.1.dropLast with
    | none => simp [hget] at hdir
    | some n =>
      rw [hget, Option.any_some] at hdir
      cases n with
      | dir m => exact ⟨m, rfl⟩
      | file c m => exact absurd hdir (by simp [Node.isDir])
      | link target => exact absurd hdir (by simp [Node.isDir])
  intro k r hr hsome
  induction r using List.reverseRecOn with
  | nil => exact absurd rfl hr
  | append_singleton r name ih =>
    have hdir := hparent (k ++ (r ++ [name])) (by simp) hsome
    rw [← List.append_assoc, List.dropLast_concat] at hdir
    by_cases hnil : r = []
    · rwa [hnil, List.append_nil] at hdir
    · obtain ⟨m, hm⟩ := hdir
      exact ih hnil (by simp [hm])

/-- There is a node at the location, or a directory to put one in. -/
def Reachable (t : Tree) (l : Location) : Prop :=
  t.get? l ≠ none ∨ ∃ k name, l = k ++ [name] ∧ ∃ m, t.get? k = some (.dir m)

/-- Where a trail ends. -/
def Trail.ReachableIn (t : Tree) : Trail → Prop
  | .arrived l => Reachable t l
  | .atLink k _ _ => t.get? k ≠ none

theorem reachable_of_trail {t : Tree} (hwf : t.WellFormed) {follow : Bool}
    {names : List String} {here : Location} (hhere : t.get? here ≠ none) {r : Trail}
    (h : t.trail follow here names = .ok r) : r.ReachableIn t := by
  rw [trail_eq_ok_iff] at h
  induction h with
  | done => exact Or.inl hhere
  | stay _ _ _ ih => exact ih hhere
  | up hdir _ ih =>
    obtain ⟨m, hm⟩ := hwf.dropLast ⟨_, hdir⟩
    exact ih (by simp [hm])
  | enter _ _ hget _ _ ih => exact ih (by simp [hget])
  | missing hdir => exact Or.inr ⟨_, _, rfl, _, hdir⟩
  | lastLink hdir => exact Or.inr ⟨_, _, rfl, _, hdir⟩
  | link => exact hhere

theorem reachable_of_walk {t : Tree} (hwf : t.WellFormed) {follow : Bool} {budget : Nat}
    {names : List String} (hne : names ≠ []) {here l : Location}
    (h : t.walk follow budget here names = .ok l) : Reachable t l := by
  rw [walk_eq_ok_iff] at h
  induction h with
  | arrived htrail =>
    obtain ⟨m, hdir⟩ := dir_of_trail htrail hne
    exact reachable_of_trail hwf (by simp [hdir]) htrail
  | followed _ _ ih => exact ih (by simp [Text.split, Chars.split_ne_nil])

/-- A file takes the place of something that is not a directory. -/
theorem WellFormed.put_file {t : Tree} (h : t.WellFormed) {l : Location} (hl : Reachable t l)
    (hnot : ∀ m, t.get? l ≠ some (.dir m)) (c : Content) (mode : Nat) :
    (t.put l (.file c mode)).WellFormed := by
  have hne := ne_nil_of_not_dir hnot
  intro k r hr hsome
  have hdir : ∃ m, t.get? k = some (.dir m) := by
    rw [get?_put hne] at hsome
    by_cases heq : k ++ r = l
    · rcases hl with hl | ⟨front, name, hfront, m, hm⟩
      · exact h k r hr (by rwa [heq])
      · rw [← List.dropLast_concat_getLast hr, ← List.append_assoc, hfront] at heq
        obtain ⟨rfl, -⟩ := List.append_inj' heq rfl
        by_cases hnil : r.dropLast = []
        · rw [hnil, List.append_nil] at hm
          exact ⟨m, hm⟩
        · exact h k r.dropLast hnil (by simp [hm])
    · rw [if_neg heq] at hsome
      exact h k r hr hsome
  obtain ⟨m, hm⟩ := hdir
  refine ⟨m, ?_⟩
  rw [get?_put hne, if_neg, hm]
  rintro rfl
  exact hnot m hm

/-! ## Ways of directories -/

/-- The tree with the missing directories along names made. -/
def makeWay (t : Tree) (here : Location) : List String → Tree
  | [] => t
  | name :: names =>
    makeWay (if t.get? (here ++ [name]) = none then t.put (here ++ [name])
      (.dir Disk.newDirMode) else t) (here ++ [name]) names

theorem makeWay_concat (t : Tree) (here : Location) (names : List String) (name : String) :
    makeWay t here (names ++ [name]) =
      if (makeWay t here names).get? (here ++ names ++ [name]) = none
      then (makeWay t here names).put (here ++ names ++ [name]) (.dir Disk.newDirMode)
      else makeWay t here names := by
  induction names generalizing t here with
  | nil => simp [makeWay]
  | cons first names ih =>
    rw [List.cons_append, makeWay, ih, makeWay, List.append_assoc here [first],
      List.singleton_append]

theorem makeWay_append (t : Tree) (here : Location) (q r : List String) :
    makeWay t here (q ++ r) = makeWay (makeWay t here q) (here ++ q) r := by
  induction q generalizing t here with
  | nil => rw [List.nil_append, List.append_nil, makeWay]
  | cons name q ih =>
    rw [List.cons_append, makeWay, makeWay, ih, List.append_assoc, List.singleton_append]

theorem get?_first (t : Tree) (l k : Location) (hl : l ≠ []) (n : Node) :
    (if t.get? l = none then t.put l (.dir Disk.newDirMode) else t).get? k = some n ↔
      t.get? k = some n ∨ t.get? k = none ∧ n = .dir Disk.newDirMode ∧ k = l := by
  by_cases hnone : t.get? l = none
  · rw [if_pos hnone, get?_put hl]
    by_cases hk : k = l
    · simp [hk, hnone, eq_comm]
    · simp [hk]
  · rw [if_neg hnone]
    refine ⟨Or.inl, ?_⟩
    rintro (h | ⟨hk, -, rfl⟩)
    · exact h
    · exact absurd hk hnone

theorem get?_makeWay (t : Tree) (here : Location) (names : List String) (k : Location) (n : Node) :
    (makeWay t here names).get? k = some n ↔ t.get? k = some n ∨
      t.get? k = none ∧ n = .dir Disk.newDirMode ∧ ∃ q, q ≠ [] ∧ q <+: names ∧ k = here ++ q := by
  induction names generalizing t here with
  | nil =>
    rw [makeWay]
    refine ⟨Or.inl, ?_⟩
    rintro (h | ⟨-, -, q, hq, hpre, -⟩)
    · exact h
    · exact absurd (List.prefix_nil.1 hpre) hq
  | cons name names ih =>
    have hway : (∃ q, q ≠ [] ∧ q <+: name :: names ∧ k = here ++ q) ↔
        k = here ++ [name] ∨ ∃ q, q ≠ [] ∧ q <+: names ∧ k = here ++ [name] ++ q := by
      constructor
      · rintro ⟨q, hq, hpre, rfl⟩
        cases q with
        | nil => exact absurd rfl hq
        | cons a q =>
          obtain ⟨rfl, htail⟩ := List.cons_prefix_cons.1 hpre
          by_cases hqnil : q = []
          · exact Or.inl (by rw [hqnil])
          · exact Or.inr ⟨q, hqnil, htail, by simp⟩
      · rintro (rfl | ⟨q, hq, hpre, rfl⟩)
        · exact ⟨[name], by simp, by simp, rfl⟩
        · exact ⟨name :: q, by simp, List.cons_prefix_cons.2 ⟨rfl, hpre⟩, by simp⟩
    have hfirst := get?_first t (here ++ [name]) k (by simp)
    have hnone : (if t.get? (here ++ [name]) = none then t.put (here ++ [name])
        (.dir Disk.newDirMode) else t).get? k = none ↔ t.get? k = none ∧ k ≠ here ++ [name] := by
      simp only [Option.eq_none_iff_forall_ne_some, ne_eq, hfirst]
      constructor
      · intro h
        refine ⟨fun m hm => h m (Or.inl hm), fun hk => ?_⟩
        refine h (.dir Disk.newDirMode) (Or.inr ⟨fun m hm => h m (Or.inl hm), rfl, hk⟩)
      · rintro ⟨h, hk⟩ m (hm | ⟨-, -, hm⟩)
        · exact h m hm
        · exact hk hm
    rw [makeWay, ih, hfirst, hnone, hway]
    constructor
    · rintro ((h | ⟨h, rfl, hk⟩) | ⟨⟨h, -⟩, rfl, hq⟩)
      · exact Or.inl h
      · exact Or.inr ⟨h, rfl, Or.inl hk⟩
      · exact Or.inr ⟨h, rfl, Or.inr hq⟩
    · rintro (h | ⟨h, rfl, hk | hq⟩)
      · exact Or.inl (Or.inl h)
      · exact Or.inl (Or.inr ⟨h, rfl, hk⟩)
      · by_cases hk : k = here ++ [name]
        · exact Or.inl (Or.inr ⟨h, rfl, hk⟩)
        · exact Or.inr ⟨⟨h, hk⟩, rfl, hq⟩

theorem extends_makeWay (t : Tree) (here : Location) (names : List String) :
    Extends t (makeWay t here names) :=
  fun _ n hn => ⟨n, (get?_makeWay ..).2 (Or.inl hn), .refl n⟩

theorem get?_makeWay_other (t : Tree) (here : Location) {names q : List String}
    (h : ¬ q <+: names) : (makeWay t here names).get? (here ++ q) = t.get? (here ++ q) := by
  refine Option.ext fun n => ?_
  rw [get?_makeWay]
  refine ⟨?_, Or.inl⟩
  rintro (hold | ⟨-, -, q', -, hpre, hq⟩)
  · exact hold
  · exact absurd (List.append_cancel_left hq ▸ hpre) h

end Rebadge.Tree
