import Mathlib.Data.List.Infix
import Rebadge.Proofs.Text.Separator

/-!
# Edits line by line

An edit whose pattern and replacement hold no line end works on each line by itself. Replacing all
occurrences treats every line alike (`WorksBeside`, `lines_map`), whereas replacing the first one
changes the first line that holds the pattern and no other (`split_replaceFirst`,
`lines_replaceFirst`).
-/

namespace Rebadge.Chars

variable {sep : Char} {pat rep s : List Char} {f g : List Char → List Char}

/-! ## Functions beside a separator -/

/-- The function works on each side of a separator by itself, and brings in no separator. -/
structure WorksBeside (sep : Char) (f : List Char → List Char) : Prop where
  append : ∀ a b, f (a ++ sep :: b) = f a ++ sep :: f b
  not_mem : ∀ s, sep ∉ s → sep ∉ f s

theorem WorksBeside.comp (hg : WorksBeside sep g) (hf : WorksBeside sep f) :
    WorksBeside sep fun s => g (f s) where
  append a b := by rw [hf.append, hg.append]
  not_mem s h := hg.not_mem _ (hf.not_mem s h)

theorem WorksBeside.split (h : WorksBeside sep f) (s : List Char) :
    split sep (f s) = (split sep s).map f :=
  split_map h.append h.not_mem s

theorem worksBeside_replaceAll (hpat : sep ∉ pat) (hrep : sep ∉ rep) :
    WorksBeside sep (replaceAll pat rep) where
  append := replaceAll_append_sep hpat
  not_mem _ hs h := (mem_replaceAll h).elim hs hrep

theorem WorksBeside.concat (h : WorksBeside sep f) (hnil : f [] = []) (s : List Char) :
    f (s ++ [sep]) = f s ++ [sep] := by
  rw [h.append, hnil]

theorem WorksBeside.getLast? (h : WorksBeside sep f) (hempty : ∀ s, f s = [] ↔ s = [])
    (s : List Char) : (f s).getLast? = some sep ↔ s.getLast? = some sep := by
  constructor
  · intro hlast
    by_cases hmem : sep ∈ s.reverse
    · obtain ⟨b, a, hs, hb⟩ := List.eq_append_cons_of_mem hmem
      obtain rfl : s = a.reverse ++ [sep] ++ b.reverse := by
        rw [← List.reverse_reverse s, hs]
        simp
      by_cases hnil : b.reverse = []
      · rw [hnil, List.append_nil, List.getLast?_concat]
      · have hfb : f b.reverse ≠ [] := fun heq => hnil ((hempty _).1 heq)
        rw [List.append_assoc, List.singleton_append, h.append,
          ← List.singleton_append, ← List.append_assoc, List.getLast?_append_of_ne_nil _ hfb]
          at hlast
        exact absurd (List.mem_of_getLast? hlast) (h.not_mem _ (by simpa using hb))
    · exact absurd (List.mem_of_getLast? hlast) (h.not_mem s (by simpa using hmem))
  · intro hlast
    obtain ⟨a, rfl⟩ := List.getLast?_eq_some_iff.1 hlast
    rw [h.concat ((hempty []).2 rfl), List.getLast?_concat]

/-! ## The first occurrence -/

theorem replaceFirst_prefix (hpat : pat ≠ []) (rep s : List Char) :
    replaceFirst pat rep (pat ++ s) = rep ++ s := by
  obtain ⟨x, xs, rfl⟩ := List.exists_cons_of_ne_nil hpat
  have hpre : (x :: xs).isPrefixOf (x :: (xs ++ s)) = true :=
    List.isPrefixOf_iff_prefix.2 (List.prefix_append (x :: xs) s)
  rw [List.cons_append, replaceFirst, if_pos hpre, ← List.cons_append, List.drop_left]

theorem replaceFirst_eq_self (hpat : pat ≠ []) (h : ¬ pat <:+: s) : replaceFirst pat rep s = s := by
  induction s with
  | nil => rw [replaceFirst, if_neg hpat]
  | cons c s ih =>
    rw [List.infix_cons_iff, not_or] at h
    rw [replaceFirst, if_neg fun hpre => h.1 (List.isPrefixOf_iff_prefix.1 hpre), ih h.2]

theorem replaceFirst_of_infix (hpat : pat ≠ []) (rep : List Char) (h : pat <:+: s) :
    ∃ a b, s = a ++ pat ++ b ∧ replaceFirst pat rep s = a ++ rep ++ b := by
  induction s with
  | nil => exact absurd (List.infix_nil.1 h) hpat
  | cons c s ih =>
    by_cases hpre : pat <+: c :: s
    · obtain ⟨b, hb⟩ := hpre
      exact ⟨[], b, hb.symm, by rw [← hb, replaceFirst_prefix hpat, List.nil_append]⟩
    · obtain ⟨a, b, rfl, hreplaced⟩ := ih ((List.infix_cons_iff.1 h).resolve_left hpre)
      refine ⟨c :: a, b, rfl, ?_⟩
      rw [replaceFirst, if_neg fun h => hpre (List.isPrefixOf_iff_prefix.1 h), hreplaced]
      rfl

/-- The first occurrence is before the separator, or it is the first one behind it. -/
theorem replaceFirst_append_sep (hpat : pat ≠ []) (hsep : sep ∉ pat) (a b : List Char) :
    replaceFirst pat rep (a ++ sep :: b) =
      if pat <:+: a then replaceFirst pat rep a ++ sep :: b else a ++ sep ::
      replaceFirst pat rep b := by
  induction a with
  | nil =>
    have hpre : ¬ pat.isPrefixOf (sep :: b) = true := by
      have hcut := isPrefixOf_append_sep hsep b []
      rw [List.nil_append] at hcut
      rw [hcut, List.isPrefixOf_iff_prefix, List.prefix_nil]
      exact hpat
    have hnil : ¬ pat <:+: [] := by simpa using hpat
    rw [if_neg hnil, List.nil_append, List.nil_append, replaceFirst, if_neg hpre]
  | cons c a ih =>
    have hcut := isPrefixOf_append_sep hsep b (c :: a)
    rw [List.cons_append] at hcut
    rw [List.cons_append, replaceFirst, replaceFirst, hcut]
    by_cases hpre : pat.isPrefixOf (c :: a) = true
    · have hprefix := List.isPrefixOf_iff_prefix.1 hpre
      rw [if_pos hpre, if_pos hpre, if_pos hprefix.isInfix, ← List.cons_append,
        List.drop_append_of_le_length hprefix.length_le, List.append_assoc]
    · have hoccurs : pat <:+: c :: a ↔ pat <:+: a := by
        rw [List.infix_cons_iff, or_iff_right fun hprefix =>
          hpre (List.isPrefixOf_iff_prefix.2 hprefix)]
      rw [if_neg hpre, if_neg hpre, ih]
      by_cases ha : pat <:+: a
      · rw [if_pos ha, if_pos (hoccurs.2 ha), List.cons_append]
      · rw [if_neg ha, if_neg (hoccurs.not.2 ha), List.cons_append]

/-- The first occurrence in a list of texts replaced. -/
def replaceFirstIn (pat rep : List Char) : List (List Char) → List (List Char)
  | [] => []
  | p :: ps => if pat <:+: p then replaceFirst pat rep p :: ps else p :: replaceFirstIn pat rep ps

@[simp] theorem length_replaceFirstIn (pat rep : List Char) (ps : List (List Char)) :
    (replaceFirstIn pat rep ps).length = ps.length := by
  induction ps with
  | nil => rfl
  | cons p ps ih =>
    rw [replaceFirstIn]
    split
    · rfl
    · rw [List.length_cons, List.length_cons, ih]

theorem replaceFirstIn_ne_nil {ps : List (List Char)} (h : ps ≠ []) :
    replaceFirstIn pat rep ps ≠ [] := by
  rw [← List.length_pos_iff, length_replaceFirstIn]
  exact List.length_pos_iff.2 h

theorem replaceFirstIn_eq_self {ps : List (List Char)} (h : ∀ p ∈ ps, ¬ pat <:+: p) :
    replaceFirstIn pat rep ps = ps := by
  induction ps with
  | nil => rfl
  | cons p ps ih =>
    obtain ⟨hp, hps⟩ := List.forall_mem_cons.1 h
    rw [replaceFirstIn, if_neg hp, ih hps]

/-- Texts behind the first one that holds the pattern stay, as do those before it. -/
theorem replaceFirstIn_append (ps qs : List (List Char)) :
    replaceFirstIn pat rep (ps ++ qs) =
      if ∃ p ∈ ps, pat <:+: p then replaceFirstIn pat rep ps ++ qs
      else ps ++ replaceFirstIn pat rep qs := by
  induction ps with
  | nil => simp
  | cons p ps ih =>
    rw [List.cons_append, replaceFirstIn, replaceFirstIn]
    by_cases hp : pat <:+: p
    · rw [if_pos hp, if_pos hp, if_pos ⟨p, List.mem_cons_self, hp⟩, List.cons_append]
    · rw [if_neg hp, if_neg hp, ih]
      have hcons : (∃ q ∈ p :: ps, pat <:+: q) ↔ ∃ q ∈ ps, pat <:+: q := by simp [hp]
      by_cases hps : ∃ q ∈ ps, pat <:+: q
      · rw [if_pos hps, if_pos (hcons.2 hps), List.cons_append]
      · rw [if_neg hps, if_neg (hcons.not.2 hps), List.cons_append]

theorem getElem?_replaceFirstIn {ps : List (List Char)} {i : Nat} {p : List Char}
    (hp : ps[i]? = some p) (hpat : ¬ pat <:+: p) : (replaceFirstIn pat rep ps)[i]? = some p := by
  induction ps generalizing i with
  | nil => exact absurd hp (by simp)
  | cons q ps ih =>
    rw [replaceFirstIn]
    cases i with
    | zero =>
      obtain rfl : q = p := by simpa using hp
      rw [if_neg hpat, List.getElem?_cons_zero]
    | succ i =>
      rw [List.getElem?_cons_succ] at hp
      split
      · rw [List.getElem?_cons_succ, hp]
      · rw [List.getElem?_cons_succ, ih hp]

/-- An edit of the texts that the pattern does not notice changes them before or after alike. -/
theorem replaceFirstIn_map (hoccurs : ∀ p, pat <:+: f p ↔ pat <:+: p)
    (hf : ∀ p, pat <:+: p → replaceFirst pat rep (f p) = f (replaceFirst pat rep p))
    (ps : List (List Char)) :
    replaceFirstIn pat rep (ps.map f) = (replaceFirstIn pat rep ps).map f := by
  induction ps with
  | nil => rfl
  | cons p ps ih =>
    rw [List.map_cons, replaceFirstIn, replaceFirstIn]
    by_cases hp : pat <:+: p
    · rw [if_pos hp, if_pos ((hoccurs p).2 hp), hf p hp, List.map_cons]
    · rw [if_neg hp, if_neg ((hoccurs p).not.2 hp), ih, List.map_cons]

theorem not_mem_of_mem_replaceFirstIn (hpat : pat ≠ []) {c : Char} {ps : List (List Char)}
    (hps : ∀ p ∈ ps, c ∉ p) (hrep : c ∉ rep) : ∀ p ∈ replaceFirstIn pat rep ps, c ∉ p := by
  induction ps with
  | nil => exact hps
  | cons p ps ih =>
    obtain ⟨hp, htail⟩ := List.forall_mem_cons.1 hps
    rw [replaceFirstIn]
    split
    · next hoccurs =>
      obtain ⟨a, b, rfl, hreplaced⟩ := replaceFirst_of_infix hpat rep hoccurs
      refine List.forall_mem_cons.2 ⟨?_, htail⟩
      simp only [hreplaced, List.mem_append, not_or] at hp ⊢
      exact ⟨⟨hp.1.1, hrep⟩, hp.2⟩
    · exact List.forall_mem_cons.2 ⟨hp, ih htail⟩

theorem replaceFirst_join (hpat : pat ≠ []) (hsep : sep ∉ pat)
    {ps : List (List Char)} (hne : ps ≠ []) :
    replaceFirst pat rep (join sep ps) = join sep (replaceFirstIn pat rep ps) := by
  induction ps with
  | nil => exact absurd rfl hne
  | cons p ps ih =>
    rw [replaceFirstIn]
    by_cases hps : ps = []
    · rw [hps, join_singleton, replaceFirstIn]
      split
      · rw [join_singleton]
      · next hp => rw [join_singleton, replaceFirst_eq_self hpat hp]
    · rw [join_cons sep p hps, replaceFirst_append_sep hpat hsep]
      split
      · rw [join_cons sep _ hps]
      · rw [join_cons sep _ (replaceFirstIn_ne_nil hps), ih hps]

/-- **The first occurrence between separators.** It is the one in the first piece that holds the
pattern. -/
theorem split_replaceFirst (hpat : pat ≠ []) (hsep : sep ∉ pat) (hrep : sep ∉ rep) (s : List Char) :
    split sep (replaceFirst pat rep s) = replaceFirstIn pat rep (split sep s) := by
  conv => lhs; rw [← join_split sep s]
  rw [replaceFirst_join hpat hsep (split_ne_nil sep s),
    split_join (replaceFirstIn_ne_nil (split_ne_nil sep s))]
  exact not_mem_of_mem_replaceFirstIn hpat (fun _ hp => not_mem_of_mem_split hp) hrep

/-! ## Lines -/

theorem dropCarriageReturn_concat (s : List Char) : dropCarriageReturn (s ++ ['\r']) = s := by
  unfold dropCarriageReturn
  rw [if_pos List.getLast?_concat, List.dropLast_concat]

theorem dropCarriageReturn_eq_self (h : s.getLast? ≠ some '\r') :
    dropCarriageReturn s = s := if_neg h

theorem mem_of_mem_dropCarriageReturn {c : Char} (h : c ∈ dropCarriageReturn s) : c ∈ s := by
  unfold dropCarriageReturn at h
  split at h
  · exact List.dropLast_subset s h
  · exact h

theorem lines_of_split {ps : List (List Char)} {last : List Char}
    (h : split '\n' s = ps ++ [last]) :
    lines s = ps.map dropCarriageReturn ++ if last = [] then [] else [last] := by
  unfold lines
  simp [h, List.getLastD_eq_getLast?, List.isEmpty_iff]

theorem exists_split (s : List Char) : ∃ ps last, split '\n' s = ps ++ [last] :=
  ⟨_, _, (List.dropLast_concat_getLast (split_ne_nil '\n' s)).symm⟩

theorem lines_eq_nil : lines s = [] ↔ s = [] := by
  constructor
  · intro h
    obtain ⟨ps, last, hsplit⟩ := exists_split s
    rw [lines_of_split hsplit, List.append_eq_nil_iff, List.map_eq_nil_iff] at h
    obtain ⟨rfl, hlast⟩ := h
    have hnil : last = [] := by
      by_contra hne
      rw [if_neg hne] at hlast
      exact absurd hlast (List.cons_ne_nil _ _)
    rw [← join_split '\n' s, hsplit, hnil]
    rfl
  · rintro rfl
    rfl

theorem lineFeed_not_mem_of_mem_lines {line : List Char} (h : line ∈ lines s) : '\n' ∉ line := by
  obtain ⟨ps, last, hsplit⟩ := exists_split s
  have hpieces : ∀ p ∈ ps ++ [last], '\n' ∉ p := fun p hp => not_mem_of_mem_split (hsplit ▸ hp)
  rw [lines_of_split hsplit] at h
  rcases List.mem_append.1 h with h | h
  · obtain ⟨p, hp, rfl⟩ := List.mem_map.1 h
    exact fun hmem => hpieces p (List.mem_append_left _ hp) (mem_of_mem_dropCarriageReturn hmem)
  · split at h
    · exact absurd h List.not_mem_nil
    · rw [List.mem_singleton.1 h]
      exact hpieces last (by simp)

/-- **Lines by themselves.** An edit that works beside the ends of lines and empties no text works
on each line. -/
theorem lines_map (hfeed : WorksBeside '\n' f) (hreturn : WorksBeside '\r' f)
    (hempty : ∀ s, f s = [] ↔ s = []) (s : List Char) : lines (f s) = (lines s).map f := by
  have hdrop : ∀ p, dropCarriageReturn (f p) = f (dropCarriageReturn p) := by
    intro p
    by_cases hp : p.getLast? = some '\r'
    · obtain ⟨q, rfl⟩ := List.getLast?_eq_some_iff.1 hp
      rw [hreturn.concat ((hempty []).2 rfl), dropCarriageReturn_concat, dropCarriageReturn_concat]
    · rw [dropCarriageReturn_eq_self hp,
        dropCarriageReturn_eq_self ((hreturn.getLast? hempty p).not.2 hp)]
  obtain ⟨ps, last, hsplit⟩ := exists_split s
  have hsplit' : split '\n' (f s) = ps.map f ++ [f last] := by
    rw [hfeed.split, hsplit, List.map_append, List.map_singleton]
  rw [lines_of_split hsplit, lines_of_split hsplit', List.map_append, List.map_map, List.map_map]
  congr 1
  · exact List.map_congr_left fun p _ => hdrop p
  · by_cases hlast : last = []
    · rw [if_pos hlast, if_pos ((hempty last).2 hlast), List.map_nil]
    · rw [if_neg hlast, if_neg ((hempty last).not.2 hlast), List.map_singleton]

theorem infix_concat_iff_of_not_mem {c : Char} (hpat : pat ≠ []) (hc : c ∉ pat) :
    pat <:+: s ++ [c] ↔ pat <:+: s := by
  rw [List.infix_concat_iff]
  refine or_iff_right fun hsuffix => ?_
  obtain ⟨front, hfront⟩ := hsuffix
  have hlast := congrArg List.getLast? hfront
  rw [List.getLast?_append_of_ne_nil _ hpat, List.getLast?_concat] at hlast
  exact hc (List.mem_of_getLast? hlast)

theorem replaceFirst_dropCarriageReturn (hpat : pat ≠ []) (hsep : '\r' ∉ pat) (hrep : rep ≠ [])
    (hrepsep : '\r' ∉ rep) (hs : pat <:+: s) :
    replaceFirst pat rep (dropCarriageReturn s) = dropCarriageReturn (replaceFirst pat rep s) := by
  by_cases hlast : s.getLast? = some '\r'
  · obtain ⟨q, rfl⟩ := List.getLast?_eq_some_iff.1 hlast
    rw [replaceFirst_append_sep hpat hsep, if_pos ((infix_concat_iff_of_not_mem hpat hsep).1 hs),
      dropCarriageReturn_concat, dropCarriageReturn_concat]
  · obtain ⟨a, b, rfl, hreplaced⟩ := replaceFirst_of_infix hpat rep hs
    rw [dropCarriageReturn_eq_self hlast, hreplaced, dropCarriageReturn_eq_self]
    by_cases hb : b = []
    · rw [hb, List.append_nil, List.getLast?_append_of_ne_nil _ hrep]
      exact fun h => hrepsep (List.mem_of_getLast? h)
    · rwa [List.getLast?_append_of_ne_nil _ hb] at hlast ⊢

theorem infix_dropCarriageReturn (hpat : pat ≠ []) (hsep : '\r' ∉ pat) :
    pat <:+: dropCarriageReturn s ↔ pat <:+: s := by
  by_cases hlast : s.getLast? = some '\r'
  · obtain ⟨q, rfl⟩ := List.getLast?_eq_some_iff.1 hlast
    rw [dropCarriageReturn_concat, infix_concat_iff_of_not_mem hpat hsep]
  · rw [dropCarriageReturn_eq_self hlast]

/-- **The first occurrence in lines.** It is the one in the first line that holds the pattern. -/
theorem lines_replaceFirst (hpat : pat ≠ []) (hrep : rep ≠ []) (hfeed : '\n' ∉ pat ∧ '\n' ∉ rep)
    (hreturn : '\r' ∉ pat ∧ '\r' ∉ rep) (s : List Char) :
    lines (replaceFirst pat rep s) = replaceFirstIn pat rep (lines s) := by
  obtain ⟨ps, last, hsplit⟩ := exists_split s
  have hany : (∃ p ∈ ps.map dropCarriageReturn, pat <:+: p) ↔ ∃ p ∈ ps, pat <:+: p := by
    simp [infix_dropCarriageReturn hpat hreturn.1]
  have hlines := split_replaceFirst hpat hfeed.1 hfeed.2 s
  rw [hsplit, replaceFirstIn_append] at hlines
  rw [lines_of_split hsplit, replaceFirstIn_append]
  by_cases hps : ∃ p ∈ ps, pat <:+: p
  · rw [if_pos hps] at hlines
    rw [if_pos (hany.2 hps), lines_of_split hlines, replaceFirstIn_map
      (fun p => infix_dropCarriageReturn hpat hreturn.1)
      fun p => replaceFirst_dropCarriageReturn hpat hreturn.1 hrep hreturn.2]
  · rw [if_neg hps, replaceFirstIn] at hlines
    rw [if_neg (hany.not.2 hps)]
    by_cases hlast : pat <:+: last
    · have hne : last ≠ [] := by
        rintro rfl
        exact hpat (by simpa using hlast)
      have hne' : replaceFirst pat rep last ≠ [] := by
        obtain ⟨a, b, -, hreplaced⟩ := replaceFirst_of_infix hpat rep hlast
        simp [hreplaced, hrep]
      rw [if_pos hlast] at hlines
      rw [lines_of_split hlines, if_neg hne, if_neg hne', replaceFirstIn, if_pos hlast]
    · rw [if_neg hlast, replaceFirstIn] at hlines
      rw [lines_of_split hlines, replaceFirstIn_eq_self (by split <;> simp [hlast])]

end Rebadge.Chars
