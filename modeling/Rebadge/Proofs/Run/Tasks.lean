import Mathlib.Data.List.Nodup
import Rebadge.Run

/-!
# Tasks in any order

A schedule arranges all tasks, each once, and the results are put back in the order of their numbers
(`getElem?_inOrder`).
-/

namespace Rebadge

variable {α β : Type} {items : List α} {n i : Nat}

theorem Schedule.map_snd_arrange (s : Schedule) (items : List α) :
    (s.arrange items).map Prod.snd = s.order items.length := by
  unfold arrange
  rw [List.map_filterMap]
  refine Eq.trans (List.filterMap_congr fun i hi => ?_) List.filterMap_some
  have hlt : i < items.length := List.mem_range.1 ((s.perm _).mem_iff.1 hi)
  rw [List.getElem?_eq_getElem hlt]
  rfl

theorem Schedule.getElem?_of_mem_arrange {s : Schedule} {a : α} (h : (a, i) ∈ s.arrange items) :
    items[i]? = some a := by
  obtain ⟨j, -, hj⟩ := List.mem_filterMap.1 h
  obtain ⟨b, hb, heq⟩ := Option.map_eq_some_iff.1 hj
  obtain ⟨rfl, rfl⟩ := Prod.mk.inj heq
  exact hb

theorem Schedule.getElem?_arrange (s : Schedule) (items : List α) (n : Nat) :
    (s.arrange items)[n]? = (s.order items.length)[n]?.bind fun i =>
      items[i]?.map fun a => (a, i) := by
  rw [← s.map_snd_arrange, List.getElem?_map]
  cases h : (s.arrange items)[n]? with
  | none => rfl
  | some p =>
    rw [Option.map_some, Option.bind_some,
      getElem?_of_mem_arrange (a := p.1) (List.mem_of_getElem? h)]
    rfl

theorem Schedule.mem_arrange {s : Schedule} {a : α} (h : items[i]? = some a) :
    (a, i) ∈ s.arrange items := by
  refine List.mem_filterMap.2 ⟨i, (s.perm _).mem_iff.2 (List.mem_range.2 ?_), by rw [h]; rfl⟩
  exact (List.getElem?_eq_some_iff.1 h).1

namespace Run

theorem filterMap_range {f : Nat → Option α} (h : ∀ i < n, (f i).isSome = true) :
    ((List.range n).filterMap f).length = n ∧ ∀ i < n, ((List.range n).filterMap f)[i]? = f i := by
  induction n with
  | zero => exact ⟨rfl, fun i hi => absurd hi (Nat.not_lt_zero i)⟩
  | succ n ih =>
    obtain ⟨hlength, hget⟩ := ih fun i hi => h i (Nat.lt_succ_of_lt hi)
    obtain ⟨x, hx⟩ := Option.isSome_iff_exists.1 (h n (Nat.lt_succ_self n))
    have hsucc : (List.range (n + 1)).filterMap f = (List.range n).filterMap f ++ [x] := by
      rw [List.range_succ, List.filterMap_append, List.filterMap_cons, hx, List.filterMap_nil]
    rw [hsucc]
    refine ⟨by rw [List.length_append, hlength]; rfl, fun i hi => ?_⟩
    rcases Nat.lt_succ_iff_lt_or_eq.1 hi with hlt | rfl
    · rw [List.getElem?_append_left (hlength.symm ▸ hlt), hget i hlt]
    · rw [List.getElem?_append_right (Nat.le_of_eq hlength), hlength, Nat.sub_self, hx]
      rfl

theorem filterMap_getElem? (items : List α) :
    (List.range items.length).filterMap (items[·]?) = items := by
  obtain ⟨hlength, hget⟩ := filterMap_range (f := (items[·]?)) (n := items.length) fun i hi => by
    rw [List.getElem?_eq_getElem hi]
    rfl
  refine List.ext_getElem? fun i => ?_
  by_cases hi : i < items.length
  · exact hget i hi
  · rw [List.getElem?_eq_none (Nat.le_trans (Nat.le_of_eq hlength) (Nat.le_of_not_lt hi)),
      List.getElem?_eq_none (Nat.le_of_not_lt hi)]

theorem perm_arrange (s : Schedule) (items : List α) :
    ((s.arrange items).map Prod.fst).Perm items := by
  have heq : (s.arrange items).map Prod.fst = (s.order items.length).filterMap (items[·]?) := by
    unfold Schedule.arrange
    rw [List.map_filterMap]
    refine List.filterMap_congr fun i _ => ?_
    rw [Option.map_map]
    exact Option.map_id'
  rw [heq]
  exact ((s.perm _).filterMap _).trans (.of_eq (filterMap_getElem? items))

variable {results : List (α × Nat)}

theorem find?_of_mem (hnodup : (results.map Prod.snd).Nodup) {x : α} (h : (x, i) ∈ results) :
    (results.find? (·.2 == i)).map (·.1) = some x := by
  induction results with
  | nil => exact absurd h List.not_mem_nil
  | cons p rest ih =>
    rw [List.map_cons, List.nodup_cons] at hnodup
    rw [List.find?_cons]
    rcases List.mem_cons.1 h with rfl | h
    · simp
    · have hne : p.2 ≠ i := by
        rintro rfl
        exact hnodup.1 (List.mem_map.2 ⟨_, h, rfl⟩)
      rw [beq_false_of_ne hne]
      exact ih hnodup.2 h

theorem exists_of_perm (hperm : (results.map Prod.snd).Perm (List.range n)) (hi : i < n) :
    ∃ x, (x, i) ∈ results := by
  obtain ⟨⟨x, j⟩, hp, rfl⟩ := List.mem_map.1 (hperm.mem_iff.2 (List.mem_range.2 hi))
  exact ⟨x, hp⟩

theorem inOrder_spec (hperm : (results.map Prod.snd).Perm (List.range n)) :
    (inOrder n results).length = n ∧
    ∀ i < n, (inOrder n results)[i]? = (results.find? (·.2 == i)).map (·.1) := by
  refine filterMap_range fun i hi => ?_
  obtain ⟨x, hx⟩ := exists_of_perm hperm hi
  rw [find?_of_mem (hperm.nodup_iff.2 List.nodup_range) hx]
  rfl

theorem length_inOrder (hperm : (results.map Prod.snd).Perm (List.range n)) :
    (inOrder n results).length = n :=
  (inOrder_spec hperm).1

/-- **The results** are in the order of the numbers. -/
theorem getElem?_inOrder (hperm : (results.map Prod.snd).Perm (List.range n)) {x : α}
    (h : (x, i) ∈ results) : (inOrder n results)[i]? = some x := by
  have hi : i < n := List.mem_range.1 (hperm.mem_iff.1 (List.mem_map.2 ⟨_, h, rfl⟩))
  rw [(inOrder_spec hperm).2 i hi, find?_of_mem (hperm.nodup_iff.2 List.nodup_range) h]

theorem inOrder_arrange (s : Schedule) (items : List α) (f : α → β) :
    inOrder items.length ((s.arrange items).map fun p => (f p.1, p.2)) = items.map f := by
  have hperm : (((s.arrange items).map fun p => (f p.1, p.2)).map Prod.snd).Perm
      (List.range items.length) := by
    rw [List.map_map]
    exact (List.Perm.of_eq (s.map_snd_arrange items)).trans (s.perm _)
  refine List.ext_getElem? fun i => ?_
  by_cases hi : i < items.length
  · have hmem := s.mem_arrange (List.getElem?_eq_getElem hi)
    rw [getElem?_inOrder hperm (List.mem_map_of_mem hmem), List.getElem?_map,
      List.getElem?_eq_getElem hi]
    rfl
  · rw [List.getElem?_eq_none (by rw [length_inOrder hperm]; omega),
      List.getElem?_eq_none (by rw [List.length_map]; omega)]

end Run
end Rebadge
