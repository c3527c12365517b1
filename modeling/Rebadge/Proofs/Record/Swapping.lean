import Rebadge.Proofs.Record.Renaming
import Rebadge.Proofs.Version.Suffix

/-!
# The renaming as swaps of names

Up to local versions the renaming swaps the package name before some hyphens for that of the fork
(`swaps_renamed`). All swaps lead the same way in an order of texts, so on a list of texts they
cannot make up for each other (`eq_of_swaps_of_perm`).
-/

namespace Rebadge

/-! ## Counting -/

theorem imp_of_countP_eq {α : Type} {l : List α} {p q : α → Bool}
    (himp : ∀ x ∈ l, p x = true → q x = true) (hcount : l.countP p = l.countP q) :
    ∀ x ∈ l, q x = true → p x = true := by
  induction l with
  | nil => simp
  | cons a l ih =>
    obtain ⟨ha, hl⟩ := List.forall_mem_cons.1 himp
    have hle := List.countP_mono_left hl
    rw [List.countP_cons, List.countP_cons] at hcount
    by_cases hp : p a = true
    · rw [if_pos hp, if_pos (ha hp), Nat.add_right_cancel_iff] at hcount
      exact List.forall_mem_cons.2 ⟨fun _ => hp, ih hl hcount⟩
    · rw [if_neg hp] at hcount
      by_cases hq : q a = true
      · rw [if_pos hq] at hcount
        omega
      · rw [if_neg hq] at hcount
        exact List.forall_mem_cons.2 ⟨fun h => absurd h hq, ih hl hcount⟩

/-- If each item of a list goes up but the list stays the same as a whole, no item goes up. -/
theorem le_of_perm {α β : Type} {l : List α} {f g : α → β} (le : β → β → Prop) (refl : ∀ a, le a a)
    (trans : ∀ a b c, le a b → le b c → le a c) (hle : ∀ x ∈ l, le (f x) (g x))
    (hperm : (l.map f).Perm (l.map g)) : ∀ x ∈ l, le (g x) (f x) := by
  classical
  intro x hx
  -- The items above the image of `x` are as many before as after.
  have hcount := hperm.countP_eq fun y => decide (le (g x) y)
  rw [List.countP_map, List.countP_map] at hcount
  have himp := imp_of_countP_eq (fun y hy h => by
    simp only [Function.comp_apply, decide_eq_true_eq] at h ⊢
    exact trans _ _ _ h (hle y hy)) hcount x hx
  simp only [Function.comp_apply, decide_eq_true_eq] at himp
  exact himp (refl _)

namespace Chars

/-! ## Swaps -/

/-- Some copies of `p` before hyphens have given way to `q`. -/
inductive Swaps (p q : List Char) : List Char → List Char → Prop where
  | nil : Swaps p q [] []
  | keep {a b : List Char} (c : Char) (h : Swaps p q a b) : Swaps p q (c :: a) (c :: b)
  | swap {a b : List Char} (h : Swaps p q a b) : Swaps p q (p ++ '-' :: a) (q ++ '-' :: b)

variable {p q a b : List Char}

theorem Swaps.prepend (h : Swaps p q a b) (s : List Char) : Swaps p q (s ++ a) (s ++ b) := by
  induction s with
  | nil => exact h
  | cons c s ih => exact .keep c ih

theorem Swaps.refl (s : List Char) : Swaps p q s s := by
  have h := Swaps.nil (p := p) (q := q) |>.prepend s
  rwa [List.append_nil] at h

theorem Swaps.append (h : Swaps p q a b) {a' b' : List Char} (h' : Swaps p q a' b') :
    Swaps p q (a ++ a') (b ++ b') := by
  induction h with
  | nil => exact h'
  | keep c _ ih => exact .keep c ih
  | swap _ ih =>
    rw [List.append_assoc, List.append_assoc]
    exact .swap ih

theorem Swaps.symm (h : Swaps p q a b) : Swaps q p b a := by
  induction h with
  | nil => exact .nil
  | keep c _ ih => exact .keep c ih
  | swap _ ih => exact .swap ih

theorem Swaps.count (h : Swaps p q a b) {c : Char} (hc : c ≠ '-') (hp : c ∉ p) (hq : c ∉ q) :
    a.count c = b.count c := by
  induction h with
  | nil => rfl
  | keep d _ ih => rw [List.count_cons, List.count_cons, ih]
  | swap _ ih =>
    rw [List.count_append, List.count_append, List.count_eq_zero.2 hp, List.count_eq_zero.2 hq,
      List.count_cons_of_ne hc.symm, List.count_cons_of_ne hc.symm, ih]

/-! ## The order of texts -/

/-- Shorter texts come first, and texts of one length are in order. -/
def Before (a b : List Char) : Prop := a.length < b.length ∨ a.length = b.length ∧ List.le a b

theorem Before.refl (a : List Char) : Before a a := Or.inr ⟨rfl, List.le_refl a⟩

theorem Before.trans {a b c : List Char} (h : Before a b) (h' : Before b c) : Before a c := by
  rcases h with h | ⟨h, hle⟩
  · rcases h' with h' | ⟨h', -⟩
    · exact Or.inl (by omega)
    · exact Or.inl (by omega)
  · rcases h' with h' | ⟨h', hle'⟩
    · exact Or.inl (by omega)
    · exact Or.inr ⟨by omega, List.le_trans hle hle'⟩

theorem Before.antisymm (h : Before a b) (h' : Before b a) : a = b := by
  rcases h with h | ⟨h, hle⟩
  · rcases h' with h' | ⟨h', -⟩ <;> omega
  · rcases h' with h' | ⟨-, hle'⟩
    · omega
    · exact List.le_antisymm hle hle'

theorem Before.total (a b : List Char) : Before a b ∨ Before b a := by
  rcases Nat.lt_trichotomy a.length b.length with h | h | h
  · exact Or.inl (Or.inl h)
  · exact (List.le_total a b).imp (fun hle => Or.inr ⟨h, hle⟩) fun hle => Or.inr ⟨h.symm, hle⟩
  · exact Or.inr (Or.inl h)

theorem append_le_append {p q a b : List Char} (hlen : p.length = q.length) (h : List.le p q)
    (h' : List.le a b) : List.le (p ++ a) (q ++ b) := by
  induction p generalizing q with
  | nil =>
    obtain rfl : q = [] := List.length_eq_zero_iff.1 hlen.symm
    exact h'
  | cons x p ih =>
    cases q with
    | nil => exact absurd hlen (by simp)
    | cons y q =>
      have htail : List.le p q → List.le (p ++ a) (q ++ b) := ih (by simpa using hlen)
      refine List.cons_le_cons_iff.2 ((List.cons_le_cons_iff.1 h).imp id fun ⟨hxy, hle⟩ => ?_)
      exact ⟨hxy, htail hle⟩

theorem Before.append (h : Before p q) (h' : Before a b) : Before (p ++ a) (q ++ b) := by
  unfold Before at h h' ⊢
  rw [List.length_append, List.length_append]
  rcases h with h | ⟨h, hle⟩
  · exact Or.inl (by omega)
  · rcases h' with h' | ⟨h', hle'⟩
    · exact Or.inl (by omega)
    · exact Or.inr ⟨by omega, append_le_append h hle hle'⟩

/-- Swaps lead upwards if the new name comes after the old one. -/
theorem Swaps.before (h : Swaps p q a b) (hpq : Before p q) : Before a b := by
  induction h with
  | nil => exact .refl []
  | keep c _ ih => exact (Before.refl [c]).append ih
  | swap _ ih => exact hpq.append ((Before.refl ['-']).append ih)

/-- **Swaps do not make up for each other.** -/
theorem eq_of_swaps_of_perm {α : Type} {l : List α} {f g : α → List Char}
    (hswaps : ∀ x ∈ l, Swaps p q (f x) (g x)) (hperm : (l.map f).Perm (l.map g)) :
    ∀ x ∈ l, f x = g x := by
  intro x hx
  rcases Before.total p q with hpq | hqp
  · have hup : ∀ y ∈ l, Before (f y) (g y) := fun y hy => (hswaps y hy).before hpq
    exact (hup x hx).antisymm
      (le_of_perm Before Before.refl (fun _ _ _ => Before.trans) hup hperm x hx)
  · have hdown : ∀ y ∈ l, Before (g y) (f y) := fun y hy => (hswaps y hy).symm.before hqp
    exact (le_of_perm Before Before.refl (fun _ _ _ => Before.trans) hdown hperm.symm x hx).antisymm
      (hdown x hx)

/-! ## Replacement as swaps -/

theorem takeWhile_hyphen (ha : '-' ∉ a) (b : List Char) :
    (a ++ '-' :: b).takeWhile (· != '-') = a := by
  rw [List.takeWhile_append_of_pos fun c hc => by simpa using fun heq : c = '-' => ha (heq ▸ hc),
    List.takeWhile_cons_of_neg (by simp), List.append_nil]

theorem replaceFrom_piece (hp : p ≠ []) (hyphen : '-' ∉ p) {y : List Char}
    (hy : '-' ∉ y) (s : List Char) :
    (∃ z, y = z ++ p ∧ replaceFrom (p ++ ['-']) (q ++ ['-']) 0 (y ++ '-' :: s) =
      z ++ (q ++ '-' :: replaceFrom (p ++ ['-']) (q ++ ['-']) 0 s)) ∨
    replaceFrom (p ++ ['-']) (q ++ ['-']) 0 (y ++ '-' :: s) =
      y ++ '-' :: replaceFrom (p ++ ['-']) (q ++ ['-']) 0 s := by
  have hstart : ∀ y, '-' ∉ y → (p ++ ['-']).isPrefixOf (y ++ '-' :: s) = true → y = p := by
    intro y hy h
    obtain ⟨r, hr⟩ := List.isPrefixOf_iff_prefix.1 h
    rw [List.append_assoc, List.singleton_append] at hr
    have hfirst := congrArg (List.takeWhile (· != '-')) hr
    rw [takeWhile_hyphen hyphen, takeWhile_hyphen hy] at hfirst
    exact hfirst.symm
  induction y with
  | nil =>
    have hnot : ¬ (p ++ ['-']).isPrefixOf ('-' :: s) = true := fun h =>
      hp (hstart [] List.not_mem_nil h).symm
    rw [List.nil_append, replaceFrom, if_neg hnot]
    exact Or.inr rfl
  | cons c y ih =>
    have hy' : '-' ∉ y := fun h => hy (List.mem_cons_of_mem c h)
    rw [List.cons_append, replaceFrom, ← List.cons_append]
    by_cases hpre : (p ++ ['-']).isPrefixOf (c :: y ++ '-' :: s) = true
    · refine Or.inl ⟨[], hstart _ hy hpre, ?_⟩
      have hlen : (p ++ ['-']).length - 1 = y.length + 1 := by
        rw [← hstart _ hy hpre]
        simp
      have hdrop : (y ++ '-' :: s).drop (y.length + 1) = s := by
        rw [← List.drop_drop, List.drop_left, List.drop_succ_cons, List.drop_zero]
      rw [if_pos hpre, replaceFrom_eq_drop, hlen, hdrop, List.append_assoc]
      rfl
    · rw [if_neg hpre]
      rcases ih hy' with ⟨z, rfl, hz⟩ | h
      · exact Or.inl ⟨c :: z, rfl, by rw [hz, List.cons_append]⟩
      · exact Or.inr (by rw [h, List.cons_append])

end Chars

/-! ## The renaming as swaps -/

namespace Version

/-- A text without local versions stays, and any other one loses a plus. -/
theorem stripFrom_eq_or_count (s : List Char) :
    stripFrom 0 s = s ∨ (stripFrom 0 s).count '+' < s.count '+' := by
  induction s using cut_induction with
  | nil => exact Or.inl rfl
  | keep c s hm ih =>
    rw [stripFrom_none hm]
    rcases ih with h | h
    · exact Or.inl (by rw [h])
    · rw [List.count_cons, List.count_cons]
      exact Or.inr (by omega)
  | cut c s m hm ih =>
    obtain ⟨⟨rest, hrest⟩, -⟩ := localVersion?_eq_some hm
    rw [drop_of_localVersion? hrest] at ih
    rw [stripFrom_some hm, drop_of_localVersion? hrest, hrest, List.count_append, List.count_append,
      List.count_cons_self, List.count_append]
    rcases ih with h | h
    · rw [h]
      exact Or.inr (by omega)
    · exact Or.inr (by omega)

end Version

namespace Record

open Chars (Swaps)

variable {c : Config}

theorem isWord_distName (hc : c.NamesValid) : Version.IsWord c.distName.toList :=
  ⟨Name.normalize_ne_nil hc.package, fun _ hx =>
    Name.isWordChar_of_isNormalChar (Name.isNormalChar_of_mem_normalize hc.package hx)⟩

theorem isWord_forkDistName (hc : c.NamesValid) : Version.IsWord c.forkDistName.toList :=
  ⟨Name.normalize_ne_nil hc.forkPackage, fun _ hx =>
    Name.isWordChar_of_isNormalChar (Name.isNormalChar_of_mem_normalize hc.forkPackage hx)⟩

theorem hyphen_not_mem_of_isWord {s : List Char} (h : Version.IsWord s) : '-' ∉ s :=
  fun hmem => absurd (h.word _ hmem) (by decide)

theorem stripFrom_append_hyphen (a b : List Char) :
    Version.stripFrom 0 (a ++ '-' :: b) = Version.stripFrom 0 a ++ '-' :: Version.stripFrom 0 b :=
  Version.stripFrom_append_separator (by decide) (by decide) (by decide) a b

/-- **The renaming swaps names** in what is left without local versions. -/
theorem swaps_renamed (hc : c.NamesValid) (x : List Char) :
    Swaps c.distName.toList c.forkDistName.toList (Version.stripFrom 0 x) (renamed c x) := by
  have hp := isWord_distName hc
  have hq := isWord_forkDistName hc
  unfold renamed Chars.replaceAll
  rw [if_neg (packagePrefix_ne_nil c), packagePrefix_eq, forkPrefix_eq]
  induction hn : x.length using Nat.strongRecOn generalizing x with
  | ind n ih =>
    by_cases hhyphen : '-' ∈ x
    · obtain ⟨y, s, rfl, hy⟩ := List.eq_append_cons_of_mem hhyphen
      have hs := ih s.length (by simp at hn; omega) s rfl
      rw [stripFrom_append_hyphen]
      rcases Chars.replaceFrom_piece (q := c.forkDistName.toList) hp.ne_nil
        (hyphen_not_mem_of_isWord hp) hy s with ⟨z, rfl, hz⟩ | h
      · rw [hz, ← List.append_assoc, stripFrom_append_hyphen]
        rcases Version.stripFrom_append_words hp hq z with hsame | ⟨w, hw, hw'⟩
        · rw [hsame]
          exact (Swaps.keep '-' hs).prepend _
        · rw [hw, hw', List.append_assoc, List.append_assoc]
          exact (Swaps.swap hs).prepend w
      · rw [h, stripFrom_append_hyphen]
        exact (Swaps.keep '-' hs).prepend _
    · have hnot : ¬ c.distName.toList ++ ['-'] <:+: x := fun h => hhyphen (h.subset (by simp))
      rw [Chars.replaceFrom_eq_self hnot]
      exact .refl _

theorem swaps_renamed_dir (hc : c.NamesValid) (dir : String) :
    Swaps c.distName.toList c.forkDistName.toList (c.renamed dir).toList
    (renamed c dir.toList) := by
  unfold Config.renamed Name.toFork Text.stripPrefix? Version.stripLocalVersion
  rw [String.toList_ofList]
  cases hpre : (c.distName ++ "-").toList.isPrefixOf? dir.toList with
  | none => exact swaps_renamed hc dir.toList
  | some rest =>
    have happend := List.isPrefixOf?_eq_some_iff_append_eq.1 hpre
    have hlist : (c.forkDistName ++ "-" ++ String.ofList rest).toList =
      c.forkDistName.toList ++ '-' :: rest := by
      simp
    have hrenamed : renamed c dir.toList =
        Version.stripFrom 0 c.forkDistName.toList ++ '-' :: renamed c rest := by
      unfold renamed Chars.replaceAll
      rw [if_neg (packagePrefix_ne_nil c), if_neg (packagePrefix_ne_nil c), ← happend]
      show Version.stripFrom 0
        (Chars.replaceFrom (packagePrefix c) (forkPrefix c) 0 (packagePrefix c ++ rest)) = _
      rw [Chars.replaceFrom_prefix (packagePrefix_ne_nil c)]
      generalize Chars.replaceFrom (packagePrefix c) (forkPrefix c) 0 rest = s
      rw [forkPrefix_eq, List.append_assoc]
      exact stripFrom_append_hyphen _ _
    show Swaps _ _ (Version.stripFrom 0 (c.forkDistName ++ "-" ++ String.ofList rest).toList) _
    rw [hlist, hrenamed, stripFrom_append_hyphen]
    exact (Swaps.keep '-' (swaps_renamed hc rest)).prepend _

/-! ## Paths that follow the renaming -/

/-- The second text has no more pluses, and if it has as many, only swaps lead to it. -/
structure Follows (c : Config) (a b : List Char) : Prop where
  plus : b.count '+' ≤ a.count '+'
  swaps : b.count '+' = a.count '+' → Swaps c.distName.toList c.forkDistName.toList a b

theorem follows_of_swaps (hc : c.NamesValid) {a b : List Char}
    (h : Swaps c.distName.toList c.forkDistName.toList a b) : Follows c a b := by
  have hcount := h.count (c := '+') (by decide)
    (isWord_distName hc).plus (isWord_forkDistName hc).plus
  exact ⟨Nat.le_of_eq hcount.symm, fun _ => h⟩

theorem follows_renamed (hc : c.NamesValid) (x : List Char) : Follows c x (renamed c x) := by
  have hswaps := swaps_renamed hc x
  have hcount := (follows_of_swaps hc hswaps).plus
  rcases Version.stripFrom_eq_or_count x with h | h
  · rw [h] at hswaps
    exact follows_of_swaps hc hswaps
  · exact ⟨by omega, fun heq => by omega⟩

theorem Follows.append {a b a' b' : List Char} (h : Follows c a b) (h' : Follows c a' b') :
    Follows c (a ++ a') (b ++ b') := by
  have hplus := h.plus
  have hplus' := h'.plus
  refine ⟨?_, fun heq => ?_⟩
  · rw [List.count_append, List.count_append]
    omega
  · rw [List.count_append, List.count_append] at heq
    exact (h.swaps (by omega)).append (h'.swaps (by omega))

/-- **A renaming that follows** and keeps a list as a whole changes no item of it. -/
theorem eq_of_follows_of_perm {α : Type} {l : List α} {f g : α → List Char}
    (h : ∀ x ∈ l, Follows c (f x) (g x)) (hperm : (l.map f).Perm (l.map g)) :
    ∀ x ∈ l, f x = g x := by
  have hplus := le_of_perm (fun a b : List Char => b.count '+' ≤ a.count '+')
    (fun _ => Nat.le_refl _) (fun _ _ _ hab hbc => Nat.le_trans hbc hab)
    (fun x hx => (h x hx).plus) hperm
  exact Chars.eq_of_swaps_of_perm
    (fun x hx => (h x hx).swaps (Nat.le_antisymm (h x hx).plus (hplus x hx))) hperm

end Record
end Rebadge
