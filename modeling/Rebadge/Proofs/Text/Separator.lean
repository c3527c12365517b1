import Rebadge.Text.Basic

/-!
# Separators in texts

Splitting at a separator and joining with it undo each other. A replacement works on each side of a
separator by itself, as long as the pattern does not contain the separator: an occurrence neither
spans the separator nor sees what stands behind it (`replaceAll_append_sep`).
-/

namespace Rebadge.Chars

variable {sep : Char} {pat rep : List Char}

/-! ## Splitting and joining -/

@[simp] theorem join_singleton (sep : Char) (p : List Char) : join sep [p] = p := by
  simp [join, List.intercalate_singleton]

theorem join_cons (sep : Char) (p : List Char) {ps : List (List Char)} (h : ps ≠ []) :
    join sep (p :: ps) = p ++ sep :: join sep ps := by
  cases ps with
  | nil => exact absurd rfl h
  | cons q ps => simp [join, List.intercalate_cons_cons]

theorem length_filter_le_join (sep : Char) (ps : List (List Char)) :
    (ps.filter (· ≠ [])).length ≤ (join sep ps).length := by
  induction ps with
  | nil => exact Nat.zero_le _
  | cons p ps ih =>
    have hstep : ((p :: ps).filter (· ≠ [])).length ≤ (ps.filter (· ≠ [])).length + 1 := by
      rw [List.filter_cons]
      split <;> simp
    by_cases hps : ps = []
    · subst hps
      cases p <;> simp
    · rw [join_cons sep p hps, List.length_append, List.length_cons]
      omega

theorem split_append_sep (sep : Char) (a b : List Char) :
    split sep (a ++ sep :: b) = split sep a ++ split sep b := by
  induction a with
  | nil => simp [split]
  | cons c a ih =>
    rw [List.cons_append, split, split, ih]
    by_cases hc : c = sep
    · rw [if_pos hc, if_pos hc, List.cons_append]
    · rw [if_neg hc, if_neg hc]
      cases ha : split sep a with
      | nil => exact absurd ha (split_ne_nil sep a)
      | cons p ps => rfl

theorem split_of_not_mem {s : List Char} (h : sep ∉ s) : split sep s = [s] := by
  induction s with
  | nil => rfl
  | cons c s ih =>
    rw [List.mem_cons, not_or] at h
    rw [split, if_neg (Ne.symm h.1), ih h.2]

theorem split_cons_of_not_mem {a : List Char} (h : sep ∉ a) (b : List Char) :
    split sep (a ++ sep :: b) = a :: split sep b := by
  rw [split_append_sep, split_of_not_mem h, List.singleton_append]

theorem append_sep_inj {a b s t : List Char} (ha : sep ∉ a) (hb : sep ∉ b) :
    a ++ sep :: s = b ++ sep :: t ↔ a = b ∧ s = t := by
  constructor
  · intro h
    induction a generalizing b with
    | nil =>
      cases b with
      | nil => exact ⟨rfl, (List.cons.inj h).2⟩
      | cons c b => exact absurd ((List.cons.inj h).1 ▸ List.mem_cons_self) hb
    | cons c a ih =>
      cases b with
      | nil => exact absurd ((List.cons.inj h).1 ▸ List.mem_cons_self) ha
      | cons d b =>
        rw [List.mem_cons, not_or] at ha hb
        obtain ⟨rfl, hrest⟩ := List.cons.inj h
        obtain ⟨rfl, rfl⟩ := ih ha.2 hb.2 hrest
        exact ⟨rfl, rfl⟩
  · rintro ⟨rfl, rfl⟩
    rfl

theorem head?_split (sep : Char) (s : List Char) :
    (split sep s).head? = some (s.takeWhile (· != sep)) := by
  induction s with
  | nil => rfl
  | cons c s ih =>
    rw [split, List.takeWhile_cons]
    by_cases hc : c = sep
    · rw [if_pos hc, if_neg (by simp [hc])]
      rfl
    · rw [if_neg hc, if_pos (by simpa using hc)]
      cases hs : split sep s with
      | nil => exact absurd hs (split_ne_nil sep s)
      | cons p ps =>
        rw [hs, List.head?_cons, Option.some.injEq] at ih
        rw [← ih]
        rfl

theorem join_split (sep : Char) (s : List Char) : join sep (split sep s) = s := by
  induction s with
  | nil => rfl
  | cons c s ih =>
    rw [split]
    by_cases hc : c = sep
    · rw [if_pos hc, join_cons sep [] (split_ne_nil sep s), ih, hc, List.nil_append]
    · rw [if_neg hc]
      cases hs : split sep s with
      | nil => exact absurd hs (split_ne_nil sep s)
      | cons p ps =>
        rw [hs] at ih
        cases ps with
        | nil => simpa using ih
        | cons q ps =>
          rw [join_cons sep p (List.cons_ne_nil q ps)] at ih
          rw [← ih]
          exact join_cons sep (c :: p) (List.cons_ne_nil q ps)

theorem mem_of_mem_split {s p : List Char} {c : Char} (h : p ∈ split sep s) (hc : c ∈ p) :
    c ∈ s := by
  induction s generalizing p with
  | nil =>
    rw [split, List.mem_singleton] at h
    rwa [h] at hc
  | cons d s ih =>
    rw [split] at h
    split at h
    · rcases List.mem_cons.1 h with rfl | h
      · exact absurd hc List.not_mem_nil
      · exact List.mem_cons_of_mem d (ih h hc)
    · cases hs : split sep s with
      | nil => exact absurd hs (split_ne_nil sep s)
      | cons q qs =>
        rw [hs] at h
        rcases List.mem_cons.1 h with rfl | h
        · rcases List.mem_cons.1 hc with rfl | hc
          · exact List.mem_cons_self
          · exact List.mem_cons_of_mem d (ih (by rw [hs]; exact List.mem_cons_self) hc)
        · exact List.mem_cons_of_mem d (ih (by rw [hs]; exact List.mem_cons_of_mem q h) hc)

theorem not_mem_of_mem_split {s p : List Char} (h : p ∈ split sep s) : sep ∉ p := by
  induction s generalizing p with
  | nil =>
    rw [split, List.mem_singleton] at h
    simp [h]
  | cons c s ih =>
    rw [split] at h
    by_cases hc : c = sep
    · rw [if_pos hc] at h
      rcases List.mem_cons.1 h with rfl | h
      · simp
      · exact ih h
    · rw [if_neg hc] at h
      cases hs : split sep s with
      | nil => exact absurd hs (split_ne_nil sep s)
      | cons q qs =>
        rw [hs] at h ih
        rcases List.mem_cons.1 h with rfl | h
        · have hq := ih (p := q) (by simp)
          simp [Ne.symm hc, hq]
        · exact ih (by simp [h])

theorem split_join {ps : List (List Char)} (hne : ps ≠ []) (h : ∀ p ∈ ps, sep ∉ p) :
    split sep (join sep ps) = ps := by
  induction ps with
  | nil => exact absurd rfl hne
  | cons p ps ih =>
    by_cases hps : ps = []
    · rw [hps, join_singleton, split_of_not_mem (h p (by simp))]
    · rw [join_cons sep p hps, split_cons_of_not_mem (h p (by simp)),
        ih hps fun q hq => h q (by simp [hq])]

theorem mem_join {ps : List (List Char)} {c : Char} (h : c ∈ join sep ps) :
    c = sep ∨ ∃ p ∈ ps, c ∈ p := by
  induction ps with
  | nil => exact absurd h List.not_mem_nil
  | cons p ps ih =>
    by_cases hps : ps = []
    · rw [hps, join_singleton] at h
      exact Or.inr ⟨p, by simp, h⟩
    · rw [join_cons sep p hps] at h
      rcases List.mem_append.1 h with h | h
      · exact Or.inr ⟨p, by simp, h⟩
      · rcases List.mem_cons.1 h with rfl | h
        · exact Or.inl rfl
        · exact (ih h).imp id fun ⟨q, hq, hc⟩ => ⟨q, by simp [hq], hc⟩

theorem head?_of_join {p : List Char} {ps : List (List Char)} {c : Char} (hc : c ≠ sep)
    (h : (join sep (p :: ps)).head? = some c) : p.head? = some c := by
  by_cases hps : ps = []
  · rwa [hps, join_singleton] at h
  · rw [join_cons sep p hps] at h
    cases p with
    | nil => exact absurd (Option.some.inj h).symm hc
    | cons d p => exact h

theorem map_join {f : List Char → List Char} (h : ∀ a b, f (a ++ sep :: b) = f a ++ sep :: f b)
    {ps : List (List Char)} (hne : ps ≠ []) : f (join sep ps) = join sep (ps.map f) := by
  induction ps with
  | nil => exact absurd rfl hne
  | cons p ps ih =>
    by_cases hps : ps = []
    · simp [hps]
    · rw [join_cons sep p hps, h, ih hps, List.map_cons, join_cons sep (f p) (by simp [hps])]

/-- The pieces after such a function are the images of the pieces. -/
theorem split_map {f : List Char → List Char} (h : ∀ a b, f (a ++ sep :: b) = f a ++ sep :: f b)
    (hsep : ∀ p, sep ∉ p → sep ∉ f p) (s : List Char) : split sep (f s) = (split sep s).map f := by
  conv => lhs; rw [← join_split sep s]
  rw [map_join h (split_ne_nil sep s), split_join (by simp [split_ne_nil])]
  intro p hp
  obtain ⟨q, hq, rfl⟩ := List.mem_map.1 hp
  exact hsep q (not_mem_of_mem_split hq)

/-! ## Replacement -/

theorem replaceFrom_nil (pat rep : List Char) (n : Nat) : replaceFrom pat rep n [] = [] := by
  cases n <;> rfl

/-- If no occurrence of the pattern reaches into `y`, the two parts are replaced by themselves. -/
theorem replaceFrom_append {y : List Char}
    (hcut : ∀ x, x ≠ [] → pat.isPrefixOf (x ++ y) = pat.isPrefixOf x) (x : List Char) :
    replaceFrom pat rep 0 (x ++ y) = replaceFrom pat rep 0 x ++ replaceFrom pat rep 0 y := by
  induction hn : x.length using Nat.strongRecOn generalizing x with
  | ind n ih =>
    cases x with
    | nil => rw [replaceFrom_nil, List.nil_append, List.nil_append]
    | cons c x =>
      have hc := hcut (c :: x) (by simp)
      rw [List.cons_append] at hc
      rw [List.cons_append, replaceFrom, replaceFrom, hc]
      by_cases hp : pat.isPrefixOf (c :: x) = true
      · have hlen : pat.length ≤ x.length + 1 := (List.isPrefixOf_iff_prefix.1 hp).length_le
        rw [if_pos hp, if_pos hp, replaceFrom_eq_drop, replaceFrom_eq_drop _ _ _ x,
          List.drop_append_of_le_length (by omega), List.append_assoc]
        rw [ih (x.drop (pat.length - 1)).length (by simp at hn ⊢; omega) _ rfl]
      · rw [if_neg hp, if_neg hp, ih x.length (by simp at hn; omega) x rfl, List.cons_append]

theorem isPrefixOf_append_sep (hsep : sep ∉ pat) (b : List Char) (x : List Char) :
    pat.isPrefixOf (x ++ sep :: b) = pat.isPrefixOf x := by
  rw [Bool.eq_iff_iff, List.isPrefixOf_iff_prefix, List.isPrefixOf_iff_prefix]
  constructor
  · intro h
    rcases Nat.lt_or_ge x.length pat.length with hlt | hge
    · obtain ⟨r, hr⟩ := h
      have hx : x ++ sep :: b = pat ++ r := hr.symm
      have hget : (x ++ sep :: b)[x.length]? = some sep := by simp
      rw [hx, List.getElem?_append_left hlt] at hget
      exact absurd (List.mem_of_getElem? hget) hsep
    · exact List.prefix_of_prefix_length_le h (List.prefix_append _ _) hge
  · intro h
    exact h.trans (List.prefix_append _ _)

/-- **Replacement beside a separator.** What stands before and behind a separator that the pattern
does not contain is replaced by itself. -/
theorem replaceAll_append_sep (hsep : sep ∉ pat) (a b : List Char) :
    replaceAll pat rep (a ++ sep :: b) = replaceAll pat rep a ++ sep :: replaceAll pat rep b := by
  unfold replaceAll
  by_cases hpat : pat = []
  · simp [hpat]
  · have hnot : ¬ pat.isPrefixOf (sep :: b) = true := by
      intro h
      obtain ⟨p, pat, rfl⟩ := List.exists_cons_of_ne_nil hpat
      rw [List.isPrefixOf_cons_cons, Bool.and_eq_true, beq_iff_eq] at h
      exact hsep (by simp [h.1])
    rw [if_neg hpat, if_neg hpat, if_neg hpat,
      replaceFrom_append (fun x _ => isPrefixOf_append_sep hsep b x), replaceFrom, if_neg hnot]

theorem replaceFrom_eq_self {s : List Char} (h : ¬ pat <:+: s) : replaceFrom pat rep 0 s = s := by
  induction s with
  | nil => rfl
  | cons c s ih =>
    have hnot : ¬ pat.isPrefixOf (c :: s) = true := by
      intro hp
      exact h (List.isPrefixOf_iff_prefix.1 hp).isInfix
    rw [replaceFrom, if_neg hnot, ih fun hs => h (hs.trans (List.suffix_cons c s).isInfix)]

theorem replaceAll_eq_self {s : List Char} (hpat : pat ≠ []) (h : ¬ pat <:+: s) :
    replaceAll pat rep s = s := by
  unfold replaceAll
  rw [if_neg hpat, replaceFrom_eq_self h]

/-- Where no text starts with both the pattern and the replacement, a replacement is always seen. -/
theorem replaceFrom_eq_self_iff (hapart : ∀ x y, rep ++ x ≠ pat ++ y) {s : List Char} :
    replaceFrom pat rep 0 s = s ↔ ¬ pat <:+: s := by
  refine ⟨fun h hoccurs => ?_, replaceFrom_eq_self⟩
  induction s with
  | nil =>
    rw [List.infix_nil] at hoccurs
    exact hapart [] rep (by rw [hoccurs, List.append_nil, List.nil_append])
  | cons c s ih =>
    rw [replaceFrom] at h
    by_cases hpre : pat.isPrefixOf (c :: s) = true
    · obtain ⟨rest, hrest⟩ := List.isPrefixOf_iff_prefix.1 hpre
      rw [if_pos hpre] at h
      exact hapart _ _ (h.trans hrest.symm)
    · rw [if_neg hpre, List.cons.injEq] at h
      exact ih h.2 ((List.infix_cons_iff.1 hoccurs).resolve_left fun hprefix =>
        hpre (List.isPrefixOf_iff_prefix.2 hprefix))

theorem replaceFrom_prefix (hpat : pat ≠ []) (rep s : List Char) :
    replaceFrom pat rep 0 (pat ++ s) = rep ++ replaceFrom pat rep 0 s := by
  obtain ⟨x, xs, rfl⟩ := List.exists_cons_of_ne_nil hpat
  have hpre : (x :: xs).isPrefixOf (x :: (xs ++ s)) = true :=
    List.isPrefixOf_iff_prefix.2 (List.prefix_append (x :: xs) s)
  rw [List.cons_append, replaceFrom, if_pos hpre, replaceFrom_eq_drop,
    List.length_cons, Nat.add_sub_cancel, List.drop_left]

theorem replaceAll_eq_self_of_not_mem {s : List Char} {c : Char} (hc : c ∈ pat) (hs : c ∉ s) :
    replaceAll pat rep s = s :=
  replaceAll_eq_self (List.ne_nil_of_mem hc) fun h => hs (h.subset hc)

theorem mem_replaceFrom {c : Char} (n : Nat) (s : List Char) (h : c ∈ replaceFrom pat rep n s) :
    c ∈ s ∨ c ∈ rep := by
  induction s generalizing n with
  | nil => rw [replaceFrom_nil] at h; exact absurd h (by simp)
  | cons d s ih =>
    cases n with
    | succ n =>
      rw [replaceFrom] at h
      exact (ih n h).imp_left (List.mem_cons_of_mem d)
    | zero =>
      rw [replaceFrom] at h
      split at h
      · rcases List.mem_append.1 h with h | h
        · exact Or.inr h
        · exact (ih _ h).imp_left (List.mem_cons_of_mem d)
      · rcases List.mem_cons.1 h with rfl | h
        · exact Or.inl List.mem_cons_self
        · exact (ih 0 h).imp_left (List.mem_cons_of_mem d)

theorem mem_replaceAll {c : Char} {s : List Char} (h : c ∈ replaceAll pat rep s) :
    c ∈ s ∨ c ∈ rep := by
  unfold replaceAll at h
  split at h
  · rw [List.mem_append, List.mem_flatMap] at h
    rcases h with ⟨d, hd, h⟩ | h
    · rcases List.mem_append.1 h with h | h
      · exact Or.inr h
      · exact Or.inl (List.mem_singleton.1 h ▸ hd)
    · exact Or.inr h
  · exact mem_replaceFrom 0 s h

theorem replaceAll_eq_nil_iff {s : List Char} (hpat : pat ≠ []) (hrep : rep ≠ []) :
    replaceAll pat rep s = [] ↔ s = [] := by
  unfold replaceAll
  rw [if_neg hpat]
  cases s with
  | nil => rw [replaceFrom_nil]
  | cons c s =>
    rw [replaceFrom]
    split
    · simp [hrep]
    · simp

/-! ## Positions in a gap -/

theorem forall_positions_nil {P : List Char → Prop} (rest : List Char) :
    ∀ t, t ≠ [] → t <:+ [] → P (t ++ rest) :=
  fun _ hne hsuffix => absurd (List.suffix_nil.1 hsuffix) hne

/-- The positions of a gap, with what follows it, are the first one and those behind its first
character. -/
theorem forall_positions_cons {P : List Char → Prop} {c : Char} {gap rest : List Char} :
    (∀ t, t ≠ [] → t <:+ c :: gap → P (t ++ rest)) ↔
      P (c :: gap ++ rest) ∧ ∀ t, t ≠ [] → t <:+ gap → P (t ++ rest) := by
  constructor
  · exact fun h => ⟨h _ (List.cons_ne_nil c gap) List.suffix_rfl,
      fun t hne hsuffix => h t hne (hsuffix.trans (List.suffix_cons c gap))⟩
  · rintro ⟨hfirst, hgap⟩ t hne hsuffix
    rcases List.suffix_cons_iff.1 hsuffix with rfl | hsuffix
    · exact hfirst
    · exact hgap t hne hsuffix

end Rebadge.Chars
