import Mathlib.Data.List.Forall2

/-!
# Computations that can fail

What a computation returned tells what its parts returned, and a list is mapped up to the first
failure.
-/

namespace Rebadge

variable {ε ε' α β : Type} {x : Except ε α} {l : List α} {e : ε}

theorem except_bind_ok {f : α → Except ε β} {b : β} :
    (x >>= f) = .ok b ↔ ∃ a, x = .ok a ∧ f a = .ok b := by
  cases x with
  | error e => simp [bind, Except.bind]
  | ok a => simp [bind, Except.bind]

theorem except_mapError_ok {f : ε → ε'} {a : α} : x.mapError f = .ok a ↔ x = .ok a := by
  cases x <;> simp [Except.mapError]

theorem except_map_ok {f : α → β} {b : β} : x.map f = .ok b ↔ ∃ a, x = .ok a ∧ f a = b := by
  cases x <;> simp [Except.map]

theorem except_map_error {f : α → β} : x.map f = .error e ↔ x = .error e := by
  cases x <;> simp [Except.map]

theorem except_mapM_ok {f : α → Except ε β} {r : List β} :
    l.mapM f = .ok r ↔ List.Forall₂ (fun a b => f a = .ok b) l r := by
  induction l generalizing r with
  | nil =>
    rw [List.mapM_nil, List.forall₂_nil_left_iff]
    exact ⟨fun h => (Except.ok.inj h).symm, fun h => by rw [h]; rfl⟩
  | cons a l ih =>
    rw [List.mapM_cons, except_bind_ok]
    simp only [except_bind_ok, ih, List.forall₂_cons_left_iff]
    constructor
    · rintro ⟨b, hb, bs, hbs, heq⟩
      exact ⟨b, bs, hb, hbs, (Except.ok.inj heq).symm⟩
    · rintro ⟨b, bs, hb, hbs, rfl⟩
      exact ⟨b, hb, bs, hbs, rfl⟩

theorem except_mapM_error {f : α → Except ε β} : l.mapM f = .error e ↔
    ∃ before a after, l = before ++ a :: after ∧ (∀ b ∈ before, ∃ v, f b = .ok v) ∧
      f a = .error e := by
  induction l with
  | nil =>
    rw [List.mapM_nil]
    exact iff_of_false (by simp [pure, Except.pure]) (by simp)
  | cons a l ih =>
    have hcons : (a :: l).mapM f = .error e ↔ f a = .error e ∨ (∃ v, f a = .ok v) ∧
        l.mapM f = .error e := by
      rw [List.mapM_cons]
      cases f a with
      | error e' => simp [bind, Except.bind]
      | ok v => cases l.mapM f <;> simp [bind, Except.bind, pure, Except.pure]
    rw [hcons, ih]
    constructor
    · rintro (ha | ⟨hv, before, a', after, rfl, hbefore, ha'⟩)
      · exact ⟨[], a, l, rfl, by simp, ha⟩
      · exact ⟨a :: before, a', after, rfl, List.forall_mem_cons.2 ⟨hv, hbefore⟩, ha'⟩
    · rintro ⟨_ | ⟨b, before⟩, a', after, hl, hbefore, ha'⟩
      · obtain ⟨rfl, rfl⟩ := List.cons.inj hl
        exact Or.inl ha'
      · obtain ⟨rfl, rfl⟩ := List.cons.inj hl
        obtain ⟨hv, hbefore⟩ := List.forall_mem_cons.1 hbefore
        exact Or.inr ⟨hv, before, a', after, rfl, hbefore, ha'⟩

end Rebadge
