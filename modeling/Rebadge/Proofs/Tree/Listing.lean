import Mathlib.Data.List.Nodup
import Rebadge.Proofs.Tree.Ways

/-!
# Listing and moving

What is below a location is listed once each and in order (`mem_below`, `nodup_below`), so that a
list of the same nodes in order is the same list (`below_eq`). A location that is moved takes what
is below it along (`get?_move`).
-/

namespace Rebadge

/-! ## Orders -/

theorem Text.le_iff {a b : String} : Text.le a b = true ↔ a ≤ b := by
  unfold Text.le
  rw [Bool.not_eq_true', decide_eq_false_iff_not, String.not_lt]

theorem Text.le_total (a b : String) : Text.le a b = true ∨ Text.le b a = true := by
  rw [Text.le_iff, Text.le_iff]
  exact String.le_total a b

theorem Text.le_trans (a b c : String) (h : Text.le a b = true) (h' : Text.le b c = true) :
    Text.le a c = true := by
  rw [Text.le_iff] at h h' ⊢
  exact String.le_trans h h'

theorem Text.le_antisymm {a b : String} (h : Text.le a b = true) (h' : Text.le b a = true) :
    a = b :=
  String.le_antisymm (Text.le_iff.1 h) (Text.le_iff.1 h')

namespace Tree

theorem locationLe_total (l k : Location) : locationLe l k = true ∨ locationLe k l = true := by
  induction l generalizing k with
  | nil => exact Or.inl (by simp [locationLe])
  | cons a l ih =>
    cases k with
    | nil => exact Or.inr (by simp [locationLe])
    | cons b k =>
      unfold locationLe
      by_cases hab : a = b
      · rw [if_pos hab, if_pos hab.symm]
        exact ih k
      · rw [if_neg hab, if_neg (Ne.symm hab)]
        exact Text.le_total a b

theorem locationLe_trans (l k m : Location) (h : locationLe l k = true)
    (h' : locationLe k m = true) : locationLe l m = true := by
  induction l generalizing k m with
  | nil => simp [locationLe]
  | cons a l ih =>
    cases k with
    | nil => simp [locationLe] at h
    | cons b k =>
      cases m with
      | nil => simp [locationLe] at h'
      | cons c m =>
        unfold locationLe at h h' ⊢
        by_cases hab : a = b
        · subst hab
          by_cases hac : a = c
          · subst hac
            rw [if_pos rfl] at h h' ⊢
            exact ih k m h h'
          · rw [if_neg hac] at h' ⊢
            exact h'
        · rw [if_neg hab] at h
          by_cases hbc : b = c
          · subst hbc
            rw [if_neg hab]
            exact h
          · rw [if_neg hbc] at h'
            by_cases hac : a = c
            · subst hac
              exact absurd (Text.le_antisymm h h') hab
            · rw [if_neg hac]
              exact Text.le_trans a b c h h'

theorem locationLe_antisymm {l k : Location} (h : locationLe l k = true)
    (h' : locationLe k l = true) : l = k := by
  induction l generalizing k with
  | nil =>
    cases k with
    | nil => rfl
    | cons b k => simp [locationLe] at h'
  | cons a l ih =>
    cases k with
    | nil => simp [locationLe] at h
    | cons b k =>
      unfold locationLe at h h'
      by_cases hab : a = b
      · subst hab
        rw [if_pos rfl] at h h'
        rw [ih h h']
      · rw [if_neg hab] at h
        rw [if_neg (Ne.symm hab)] at h'
        exact absurd (Text.le_antisymm h h') hab

/-! ## What is below a location -/

variable {t : Tree} {l : Location}

theorem mem_nodes_of_nodeAt {k : Location} {n : Node} {nodes : List (Location × Node)}
    (h : nodeAt k nodes = some n) : (k, n) ∈ nodes := by
  induction nodes with
  | nil => exact absurd h (by simp [nodeAt])
  | cons p nodes ih =>
    obtain ⟨k', m⟩ := p
    rw [nodeAt] at h
    split at h
    · next hk =>
      obtain rfl := Option.some.inj h
      simp [hk]
    · exact List.mem_cons_of_mem _ (ih h)

theorem forall_below {P : Location → Prop} (hl : l ≠ [])
    (h : ∀ r ∈ t.keys.filterMap l.isPrefixOf?, P r) (r : Location) (hr : t.get? (l ++ r) ≠ none) :
    P r := by
  have hmem : l ++ r ∈ t.keys :=
    Decidable.byContradiction fun hnot => hr ((get?_eq_none_iff (by simp [hl])).2 hnot)
  exact h r (List.mem_filterMap.2 ⟨l ++ r, hmem, List.isPrefixOf?_eq_some_iff_append_eq.2 rfl⟩)

theorem mem_nodes_iff (hnodup : (t.keys.filter l.isPrefixOf).Nodup) {k : Location}
    (hk : l <+: k) (hne : k ≠ []) {n : Node} : (k, n) ∈ t.nodes ↔ t.get? k = some n := by
  unfold get?
  rw [if_neg hne]
  refine ⟨fun hmem => ?_, mem_nodes_of_nodeAt⟩
  unfold keys at hnodup
  generalize t.nodes = nodes at hmem hnodup ⊢
  induction nodes with
  | nil => exact absurd hmem List.not_mem_nil
  | cons p nodes ih =>
    obtain ⟨k', m⟩ := p
    rw [List.map_cons, List.filter_cons] at hnodup
    rw [nodeAt]
    rcases List.mem_cons.1 hmem with heq | htail
    · obtain ⟨rfl, rfl⟩ := Prod.mk.inj heq
      rw [if_pos rfl]
    · have hkey : k ∈ (nodes.map Prod.fst).filter l.isPrefixOf :=
        List.mem_filter.2 ⟨List.mem_map_of_mem htail, List.isPrefixOf_iff_prefix.2 hk⟩
      by_cases hk' : k' = k
      · subst hk'
        rw [if_pos (List.isPrefixOf_iff_prefix.2 hk), List.nodup_cons] at hnodup
        exact absurd hkey hnodup.1
      · rw [if_neg hk']
        refine ih htail ?_
        split at hnodup
        · exact (List.nodup_cons.1 hnodup).2
        · exact hnodup

theorem mem_below (hnodup : (t.keys.filter l.isPrefixOf).Nodup) (hl : l ≠ [])
    {r : Location} {n : Node} : (r, n) ∈ t.below l ↔ t.get? (l ++ r) = some n := by
  rw [← mem_nodes_iff hnodup (List.prefix_append l r) (by simp [hl])]
  unfold below
  simp only [Sorted.mem_sort, List.mem_filterMap, Option.map_eq_some_iff,
    Prod.exists, Prod.mk.injEq]
  constructor
  · rintro ⟨k, m, hmem, rest, hpre, rfl, rfl⟩
    rwa [List.isPrefixOf?_eq_some_iff_append_eq.1 hpre]
  · intro hmem
    exact ⟨_, _, hmem, r, List.isPrefixOf?_eq_some_iff_append_eq.2 rfl, rfl, rfl⟩

theorem nodup_below (hnodup : (t.keys.filter l.isPrefixOf).Nodup) :
    ((t.below l).map Prod.fst).Nodup := by
  unfold below
  refine ((Sorted.sort_perm _ _).map Prod.fst).nodup_iff.2 ?_
  have hkeys : (t.nodes.filterMap fun p => (l.isPrefixOf? p.1).map fun rest => (rest, p.2)).map
      Prod.fst = (t.keys.filter l.isPrefixOf).filterMap l.isPrefixOf? := by
    unfold keys
    rw [List.map_filterMap, List.filterMap_filter, List.filterMap_map]
    refine List.filterMap_congr fun p _ => ?_
    obtain ⟨k, n⟩ := p
    show ((l.isPrefixOf? k).map fun rest => (rest, n)).map Prod.fst =
      if l.isPrefixOf k = true then l.isPrefixOf? k else none
    rw [← List.isSome_isPrefixOf?_eq_isPrefixOf]
    cases l.isPrefixOf? k <;> rfl
  rw [hkeys]
  refine hnodup.filterMap fun k k' rest hk hk' => ?_
  rw [← List.isPrefixOf?_eq_some_iff_append_eq.1 hk, List.isPrefixOf?_eq_some_iff_append_eq.1 hk']

theorem sort_eq_of_perm {nodes nodes' : List (Location × Node)}
    (hdistinct : (nodes.map Prod.fst).Nodup) (hperm : nodes.Perm nodes') :
    Sorted.sort (fun a b => locationLe a.1 b.1) nodes =
      Sorted.sort (fun a b => locationLe a.1 b.1) nodes' := by
  have hsorted : ∀ items : List (Location × Node),
      (Sorted.sort (fun a b => locationLe a.1 b.1) items).Pairwise fun a b =>
        locationLe a.1 b.1 = true :=
    Sorted.pairwise_sort (fun a b => locationLe_total a.1 b.1) fun a b c =>
      locationLe_trans a.1 b.1 c.1
  have hsort := (Sorted.sort_perm (fun a b => locationLe a.1 b.1) nodes).trans
    (hperm.trans (Sorted.sort_perm (fun a b => locationLe a.1 b.1) nodes').symm)
  refine hsort.eq_of_pairwise (fun a b ha hb hab hba => ?_) (hsorted _) (hsorted _)
  refine List.inj_on_of_nodup_map hdistinct ((Sorted.mem_sort _).1 ha) ?_
    (locationLe_antisymm hab hba)
  exact hperm.mem_iff.2 ((Sorted.mem_sort _).1 hb)

/-- **The listing** is the list of the nodes that is in order. -/
theorem below_eq (hnodup : (t.keys.filter l.isPrefixOf).Nodup) (hl : l ≠ [])
    {nodes : List (Location × Node)} (hdistinct : (nodes.map Prod.fst).Nodup)
    (hmem : ∀ r n, (r, n) ∈ nodes ↔ t.get? (l ++ r) = some n) :
    t.below l = Sorted.sort (fun a b => locationLe a.1 b.1) nodes := by
  have hfound : ∀ r n, (r, n) ∈ nodes ↔
      (r, n) ∈ t.nodes.filterMap fun p => (l.isPrefixOf? p.1).map fun rest =>
      (rest, p.2) := by
    intro r n
    have hlisted := mem_below hnodup hl (r := r) (n := n)
    unfold below at hlisted
    rw [hmem, ← hlisted, Sorted.mem_sort]
  have hkeys := (((Sorted.sort_perm _ _).map Prod.fst).nodup_iff).1 (nodup_below hnodup)
  refine sort_eq_of_perm hkeys
    ((List.perm_ext_iff_of_nodup hkeys.of_map hdistinct.of_map).2 fun p => ?_)
  exact (hfound p.1 p.2).symm

/-- The same nodes are listed below two locations that have the same below them. -/
theorem below_eq_below {t' : Tree} {k : Location} (hnodup : (t.keys.filter l.isPrefixOf).Nodup)
    (hl : l ≠ []) (hnodup' : (t'.keys.filter k.isPrefixOf).Nodup) (hk : k ≠ [])
    (hsame : ∀ r, t.get? (l ++ r) = t'.get? (k ++ r)) :
    t.below l = t'.below k := by
  have hdistinct := nodup_below hnodup'
  have hlisted : ∀ {r n}, (r, n) ∈ t'.below k ↔ t'.get? (k ++ r) = some n := mem_below hnodup' hk
  rw [below_eq hnodup hl hdistinct fun r n => by rw [hlisted, hsame]]
  exact (below_eq hnodup' hk hdistinct fun r n => hlisted).symm

/-! ## The names in a directory -/

theorem nameBelow?_eq_some {k : Location} {name : String} :
    nameBelow? l k = some name ↔ k = l ++ [name] := by
  unfold nameBelow?
  constructor
  · intro h
    split at h
    · next found hpre =>
      rw [← Option.some.inj h]
      exact (List.isPrefixOf?_eq_some_iff_append_eq.1 hpre).symm
    · exact absurd h (by simp)
  · rintro rfl
    rw [List.isPrefixOf?_eq_some_iff_append_eq.2 rfl]

theorem mem_names_iff {name : String} : name ∈ t.names l ↔ t.get? (l ++ [name]) ≠ none := by
  rw [ne_eq, get?_eq_none_iff (by simp), Decidable.not_not, names_eq,
    Sorted.mem_sort, List.mem_filterMap]
  simp only [nameBelow?_eq_some, exists_eq_right]

theorem nodup_names (hnodup : (t.keys.filter l.isPrefixOf).Nodup) : (t.names l).Nodup := by
  have hkeys : t.keys.filterMap (nameBelow? l) =
      (t.keys.filter l.isPrefixOf).filterMap (nameBelow? l) := by
    rw [List.filterMap_filter]
    refine List.filterMap_congr fun k _ => ?_
    unfold nameBelow?
    rw [← List.isSome_isPrefixOf?_eq_isPrefixOf]
    cases l.isPrefixOf? k <;> rfl
  rw [names_eq, (Sorted.sort_perm _ _).nodup_iff, hkeys]
  refine hnodup.filterMap fun k k' y hk hk' => ?_
  rw [nameBelow?_eq_some.1 hk, nameBelow?_eq_some.1 hk']

theorem names_eq_of_mem {t' : Tree} (hnodup : (t.keys.filter l.isPrefixOf).Nodup)
    (hnodup' : (t'.keys.filter l.isPrefixOf).Nodup)
    (h : ∀ y, t.get? (l ++ [y]) ≠ none ↔ t'.get? (l ++ [y]) ≠ none) :
    t.names l = t'.names l := by
  have hperm : (t.names l).Perm (t'.names l) :=
    (List.perm_ext_iff_of_nodup (nodup_names hnodup) (nodup_names hnodup')).2 fun y => by
      rw [mem_names_iff, mem_names_iff, h]
  have hsorted : ∀ t : Tree, (t.names l).Pairwise fun a b => Text.le a b = true := by
    intro t
    rw [names_eq]
    exact Sorted.pairwise_sort Text.le_total Text.le_trans _
  exact hperm.eq_of_pairwise (fun a b _ _ hab hba => Text.le_antisymm hab hba)
    (hsorted t) (hsorted t')

theorem names_eq_singleton (hnodup : (t.keys.filter l.isPrefixOf).Nodup) {name : String}
    (hname : t.get? (l ++ [name]) ≠ none) (honly : ∀ y, t.get? (l ++ [y]) ≠ none → y = name) :
    t.names l = [name] := by
  have hmem : ∀ y, y ∈ t.names l ↔ y = name := fun y =>
    mem_names_iff.trans ⟨honly y, fun h => by rwa [h]⟩
  refine List.perm_singleton.1
    ((List.perm_ext_iff_of_nodup (nodup_names hnodup) (by simp)).2 fun y => ?_)
  rw [hmem, List.mem_singleton]

/-! ## Moving -/

theorem nodeAt_append (k : Location) (ns ms : List (Location × Node)) :
    nodeAt k (ns ++ ms) = (nodeAt k ns).or (nodeAt k ms) := by
  induction ns with
  | nil => rfl
  | cons p ns ih =>
    obtain ⟨k', n⟩ := p
    rw [List.cons_append, nodeAt, nodeAt, ih]
    split <;> rfl

/-- What was at and below one location, with its nodes at another one. -/
def carried (source target : Location) (nodes : List (Location × Node)) : List (Location × Node) :=
  nodes.filterMap fun (k, n) => (source.isPrefixOf? k).map fun rest => (target ++ rest, n)

theorem carried_cons (source target k : Location) (n : Node) (nodes : List (Location × Node)) :
    carried source target ((k, n) :: nodes) = match source.isPrefixOf? k with
      | none => carried source target nodes
      | some rest => (target ++ rest, n) :: carried source target nodes := by
  unfold carried
  rw [List.filterMap_cons]
  cases h : source.isPrefixOf? k <;> simp only [h, Option.map_none, Option.map_some]

theorem nodeAt_carried (source target rest : Location) (nodes : List (Location × Node)) :
    nodeAt (target ++ rest) (carried source target nodes) = nodeAt (source ++ rest) nodes := by
  induction nodes with
  | nil => rfl
  | cons p nodes ih =>
    obtain ⟨k, n⟩ := p
    rw [carried_cons, nodeAt]
    cases hpre : source.isPrefixOf? k with
    | none =>
      have hk : k ≠ source ++ rest := by
        rintro rfl
        rw [List.isPrefixOf?_eq_some_iff_append_eq.2 rfl] at hpre
        exact absurd hpre (by simp)
      rw [if_neg hk]
      exact ih
    | some found =>
      obtain rfl := List.isPrefixOf?_eq_some_iff_append_eq.1 hpre
      show nodeAt _ ((target ++ found, n) :: _) = _
      rw [nodeAt]
      by_cases hfound : found = rest
      · rw [hfound, if_pos rfl, if_pos rfl]
      · rw [if_neg (by simpa using hfound), if_neg (by simpa using hfound)]
        exact ih

theorem nodeAt_carried_of_not_prefix {source target k : Location} (hk : ¬ target <+: k)
    (nodes : List (Location × Node)) : nodeAt k (carried source target nodes) = none := by
  rw [nodeAt_eq_none_iff]
  intro hmem
  obtain ⟨⟨k', n⟩, hcarried, rfl⟩ := List.mem_map.1 hmem
  obtain ⟨⟨j, m⟩, -, hj⟩ := List.mem_filterMap.1 hcarried
  obtain ⟨rest, -, heq⟩ := Option.map_eq_some_iff.1 hj
  rw [← (Prod.mk.inj heq).1] at hk
  exact hk (List.prefix_append target rest)

variable {source target : Location}

theorem get?_move_eq (hs : source ≠ []) (ht : target ≠ []) {k : Location} (hk : k ≠ []) :
    (t.move source target).get? k =
      (if target <+: k ∨ source <+: k then none else t.get? k).or
      (nodeAt k (carried source target t.nodes)) := by
  have hkept : nodeAt k ((t.drop source).drop target).nodes =
      if target <+: k ∨ source <+: k then none else t.get? k := by
    have hdrop := get?_drop ht (t := t.drop source) k
    rw [get?_drop hs] at hdrop
    unfold get? at hdrop
    rw [if_neg hk, if_neg hk] at hdrop
    rw [hdrop]
    unfold get?
    rw [if_neg hk]
    by_cases h1 : target <+: k
    · rw [if_pos (List.isPrefixOf_iff_prefix.2 h1), if_pos (Or.inl h1)]
    · rw [if_neg (fun h => h1 (List.isPrefixOf_iff_prefix.1 h))]
      by_cases h2 : source <+: k
      · rw [if_pos (List.isPrefixOf_iff_prefix.2 h2), if_pos (Or.inr h2)]
      · rw [if_neg (fun h => h2 (List.isPrefixOf_iff_prefix.1 h)), if_neg (by simp [h1, h2])]
  rw [get?, if_neg hk, ← hkept]
  exact nodeAt_append k _ _

/-- **A moved location** takes along what is below it. -/
theorem get?_move (hs : source ≠ []) (ht : target ≠ []) (rest : Location) :
    (t.move source target).get? (target ++ rest) = t.get? (source ++ rest) := by
  rw [get?_move_eq hs ht (by simp [ht]), if_pos (Or.inl (List.prefix_append target rest)),
    nodeAt_carried, get?, if_neg (by simp [hs])]
  rfl

theorem get?_move_other (hs : source ≠ []) (ht : target ≠ []) {k : Location} (hk : ¬ target <+: k) :
    (t.move source target).get? k = if source <+: k then none else t.get? k := by
  by_cases hnil : k = []
  · subst hnil
    rw [if_neg (by simpa using hs)]
    rfl
  · rw [get?_move_eq hs ht hnil, nodeAt_carried_of_not_prefix hk, Option.or_none]
    simp only [hk, false_or]

theorem nodup_keys_move (hnodup : (t.keys.filter l.isPrefixOf).Nodup) (hs : l <+: source) :
    ((t.move source target).keys.filter l.isPrefixOf).Nodup := by
  have hkept : ((t.drop source).drop target).keys =
      (t.keys.filter fun k => !source.isPrefixOf k).filter fun k => !target.isPrefixOf k := by
    unfold keys drop
    rw [List.filter_map, List.filter_map]
    rfl
  have hcarried : (carried source target t.nodes).map Prod.fst =
      (t.keys.filter l.isPrefixOf).filterMap fun k => (source.isPrefixOf? k).map (target ++ ·) := by
    unfold carried keys
    rw [List.map_filterMap, List.filterMap_filter, List.filterMap_map]
    refine List.filterMap_congr fun p _ => ?_
    obtain ⟨k, n⟩ := p
    show ((source.isPrefixOf? k).map fun rest => (target ++ rest, n)).map Prod.fst =
      if l.isPrefixOf k = true then (source.isPrefixOf? k).map (target ++ ·) else none
    cases hpre : source.isPrefixOf? k with
    | none => simp
    | some rest =>
      have hlk : l <+: k := hs.trans ⟨rest, List.isPrefixOf?_eq_some_iff_append_eq.1 hpre⟩
      rw [if_pos (List.isPrefixOf_iff_prefix.2 hlk)]
      rfl
  have hkeys : (t.move source target).keys =
      ((t.drop source).drop target).keys ++ (carried source target t.nodes).map Prod.fst :=
      List.map_append
  rw [hkeys, List.filter_append, hkept, hcarried, List.nodup_append]
  refine ⟨?_, ?_, ?_⟩
  · rw [List.filter_comm, List.filter_comm (l := t.keys)]
    exact (hnodup.filter _).filter _
  · refine List.Nodup.filter _ (hnodup.filterMap fun k k' j hk hk' => ?_)
    obtain ⟨rest, hrest, rfl⟩ := Option.map_eq_some_iff.1 hk
    obtain ⟨rest', hrest', heq⟩ := Option.map_eq_some_iff.1 hk'
    rw [← List.isPrefixOf?_eq_some_iff_append_eq.1 hrest,
      ← List.isPrefixOf?_eq_some_iff_append_eq.1 hrest', List.append_cancel_left heq]
  · rintro k hk k' hk' rfl
    have hnot := (List.mem_filter.1 (List.mem_filter.1 hk).1).2
    obtain ⟨j, -, hj⟩ := List.mem_filterMap.1 (List.mem_filter.1 hk').1
    obtain ⟨rest, -, rfl⟩ := Option.map_eq_some_iff.1 hj
    rw [List.isPrefixOf_iff_prefix.2 (List.prefix_append target rest)] at hnot
    exact absurd hnot (by simp)

end Tree
end Rebadge
