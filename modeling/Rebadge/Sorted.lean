/-!
# Sorting

Insertion sort by a Boolean order. It keeps all items, and items that the order does not tell apart
keep their order. It recurs on the list, so that sorting a given list is a computation that proofs
can carry out.
-/

namespace Rebadge.Sorted

variable {α : Type} (le : α → α → Bool)

/-- The list with an item before the first one that it may precede. -/
def insert (a : α) : List α → List α
  | [] => [a]
  | b :: rest => if le a b then a :: b :: rest else b :: insert a rest

/-- The items in order. -/
def sort (items : List α) : List α := items.foldr (insert le) []

theorem insert_perm (a : α) (items : List α) : (insert le a items).Perm (a :: items) := by
  induction items with
  | nil => exact .refl _
  | cons b rest ih =>
    rw [insert]
    split
    · exact .refl _
    · exact (ih.cons b).trans (.swap a b rest)

/-- Sorting keeps all items. -/
theorem sort_perm (items : List α) : (sort le items).Perm items := by
  induction items with
  | nil => exact .refl _
  | cons a rest ih => exact (insert_perm le a _).trans (ih.cons a)

@[simp] theorem mem_sort {a : α} {items : List α} : a ∈ sort le items ↔ a ∈ items :=
  (sort_perm le items).mem_iff

theorem map_insert {β : Type} (f : β → α) (a : β) (items : List β) :
    (insert (fun a b => le (f a) (f b)) a items).map f = insert le (f a) (items.map f) := by
  induction items with
  | nil => rfl
  | cons b rest ih =>
    rw [insert, List.map_cons, insert]
    split
    · rfl
    · rw [List.map_cons, ih]

/-- Sorting by what a function yields. -/
theorem map_sort {β : Type} (f : β → α) (items : List β) :
    (sort (fun a b => le (f a) (f b)) items).map f = sort le (items.map f) := by
  induction items with
  | nil => rfl
  | cons a rest ih =>
    show (insert _ a (sort _ rest)).map f = insert le (f a) (sort le (rest.map f))
    rw [map_insert, ih]

variable {le}

theorem pairwise_insert (total : ∀ a b, le a b = true ∨ le b a = true)
    (trans : ∀ a b c, le a b = true → le b c = true → le a c = true) (a : α) {items : List α}
    (h : items.Pairwise (le · ·)) : (insert le a items).Pairwise (le · ·) := by
  induction items with
  | nil => exact List.pairwise_singleton _ _
  | cons b rest ih =>
    obtain ⟨hb, hrest⟩ := List.pairwise_cons.1 h
    rw [insert]
    split
    · next hab =>
      refine List.pairwise_cons.2 ⟨fun c hc => ?_, h⟩
      rcases List.mem_cons.1 hc with rfl | hc
      · exact hab
      · exact trans _ _ _ hab (hb c hc)
    · next hab =>
      refine List.pairwise_cons.2 ⟨fun c hc => ?_, ih hrest⟩
      rcases List.mem_cons.1 ((insert_perm le a rest).mem_iff.1 hc) with rfl | hc
      · exact (total c b).resolve_left hab
      · exact hb c hc

/-- Under a total and transitive order the result is in order. -/
theorem pairwise_sort (total : ∀ a b, le a b = true ∨ le b a = true)
    (trans : ∀ a b c, le a b = true → le b c = true → le a c = true) (items : List α) :
    (sort le items).Pairwise (le · ·) := by
  induction items with
  | nil => exact .nil
  | cons a rest ih => exact pairwise_insert total trans a ih

end Rebadge.Sorted
