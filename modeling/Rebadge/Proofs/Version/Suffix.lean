import Mathlib.Data.List.TakeWhile
import Rebadge.Proofs.Version.Local

/-!
# Local versions before a word

A word at the end of a text has no part in a local version, or it ends the label of one. So two
words are treated alike: either both are cut away with the label, or both stay
(`stripFrom_append_words`).
-/

namespace Rebadge.Version

open Text (isWordChar)

/-- A text of word characters. -/
structure IsWord (s : List Char) : Prop where
  ne_nil : s ≠ []
  word : ∀ c ∈ s, isWordChar c = true

theorem IsWord.dot (h : IsWord s) : '.' ∉ s := fun hmem => absurd (h.word _ hmem) (by decide)

theorem IsWord.plus (h : IsWord s) : '+' ∉ s := fun hmem => absurd (h.word _ hmem) (by decide)

theorem endsVersion_plus (t : List Char) : EndsVersion ('+' :: t) where
  digit := by simp; decide
  word := by simp; decide
  number := rfl
  dev := rfl

/-- A local version can only start a text where a development version reaches up to the first
plus. -/
theorem localVersion?_append_plus {a : List Char} (ha : '+' ∉ a) (t : List Char) :
    localVersion? (a ++ '+' :: t) = match devVersion? a with
      | some (base, []) =>
        if (t.takeWhile isWordChar).isEmpty then none else some ⟨base, t.takeWhile isWordChar⟩
      | _ => none := by
  unfold localVersion?
  rw [blind_devVersion (endsVersion_plus t) a]
  cases hdev : devVersion? a with
  | none => rfl
  | some r =>
    obtain ⟨base, rest⟩ := r
    obtain ⟨happend, -, -⟩ := devVersion?_eq_some hdev
    cases rest with
    | nil => rfl
    | cons x rest =>
      have hx : ('+' == x) = false := by
        rw [beq_eq_false_iff_ne]
        rintro rfl
        exact ha (by rw [happend]; simp)
      show (['+'].isPrefixOf? (x :: (rest ++ '+' :: t))).bind _ = none
      rw [isPrefixOf?_cons, if_neg (by simp [hx])]
      rfl

/-- What a word at the end changes about the local version at the start. -/
inductive Ending (y p q : List Char) : Prop where
  /-- There is none. -/
  | none (hp : localVersion? (y ++ p) = none) (hq : localVersion? (y ++ q) = none)
  /-- It ends before the word. -/
  | before (m : LocalVersion) (hlen : m.length ≤ y.length) (hp : localVersion? (y ++ p) = some m)
      (hq : localVersion? (y ++ q) = some m)
  /-- Its label ends with the word. -/
  | through (base label : List Char) (hy : y.length = base.length + 1 + label.length)
      (hp : localVersion? (y ++ p) = some ⟨base, label ++ p⟩)
      (hq : localVersion? (y ++ q) = some ⟨base, label ++ q⟩)

theorem takeWhile_append_word {p : List Char} (hp : IsWord p) (b : List Char) :
    (b ++ p).takeWhile isWordChar =
      if b.all isWordChar = true then b ++ p else b.takeWhile isWordChar := by
  induction b with
  | nil =>
    rw [List.all_nil, if_pos rfl]
    exact List.takeWhile_eq_self_iff.2 hp.word
  | cons c b ih =>
    by_cases hc : isWordChar c = true
    · rw [List.cons_append, List.takeWhile_cons_of_pos hc, ih, List.takeWhile_cons_of_pos hc,
        List.all_cons, hc, Bool.true_and]
      split <;> rfl
    · rw [List.cons_append, List.takeWhile_cons_of_neg hc, List.takeWhile_cons_of_neg hc, if_neg]
      simp [hc]

/-- Behind a development version the label goes on to the word, or ends before it. -/
theorem ending_plus (hp : IsWord p) (hq : IsWord q) {a base : List Char} (ha : '+' ∉ a)
    (hdev : devVersion? a = some (base, [])) (b : List Char) : Ending (a ++ '+' :: b) p q := by
  obtain ⟨hbase, -, -⟩ := devVersion?_eq_some hdev
  rw [List.append_nil] at hbase
  have heq : ∀ w, localVersion? (a ++ '+' :: b ++ w) =
      if ((b ++ w).takeWhile isWordChar).isEmpty then none
      else some ⟨base, (b ++ w).takeWhile isWordChar⟩ := by
    intro w
    rw [List.append_assoc, List.cons_append, localVersion?_append_plus ha, hdev]
  by_cases hall : b.all isWordChar = true
  · have hlabel : ∀ {w}, IsWord w → localVersion? (a ++ '+' :: b ++ w) = some ⟨base, b ++ w⟩ := by
      intro w hw
      rw [heq w, takeWhile_append_word hw, if_pos hall]
      exact if_neg (by simp [hw.ne_nil])
    refine .through base b ?_ (hlabel hp) (hlabel hq)
    rw [hbase, List.length_append, List.length_cons]
    omega
  · have hsame : ∀ {w}, IsWord w → localVersion? (a ++ '+' :: b ++ w) =
        if (b.takeWhile isWordChar).isEmpty then none else some ⟨base, b.takeWhile isWordChar⟩ := by
      intro w hw
      rw [heq w, takeWhile_append_word hw, if_neg hall]
    by_cases hempty : (b.takeWhile isWordChar).isEmpty = true
    · exact .none ((hsame hp).trans (if_pos hempty)) ((hsame hq).trans (if_pos hempty))
    · refine .before _ ?_ ((hsame hp).trans (if_neg hempty)) ((hsame hq).trans (if_neg hempty))
      have hle := (List.takeWhile_sublist isWordChar (l := b)).length_le
      rw [LocalVersion.length, hbase, List.length_append, List.length_cons]
      show base.length + 1 + (b.takeWhile isWordChar).length ≤ _
      omega

theorem localVersion?_of_not_plus {s : List Char} (h : '+' ∉ s) : localVersion? s = none := by
  rw [Option.eq_none_iff_forall_ne_some]
  intro m hm
  obtain ⟨⟨rest, hrest⟩, -⟩ := localVersion?_eq_some hm
  exact h (by rw [hrest]; simp)

theorem ending (hp : IsWord p) (hq : IsWord q) (y : List Char) : Ending y p q := by
  by_cases hplus : '+' ∈ y
  · obtain ⟨a, b, rfl, ha⟩ := List.eq_append_cons_of_mem hplus
    by_cases hdev : ∃ base, devVersion? a = some (base, [])
    · obtain ⟨base, hdev⟩ := hdev
      exact ending_plus hp hq ha hdev b
    · have hnone : ∀ w, localVersion? (a ++ '+' :: b ++ w) = none := by
        intro w
        rw [List.append_assoc, List.cons_append, localVersion?_append_plus ha]
        split
        · next base heq => exact absurd ⟨base, heq⟩ hdev
        · rfl
      exact .none (hnone p) (hnone q)
  · have hnone : ∀ {w}, IsWord w → localVersion? (y ++ w) = none := fun hw =>
      localVersion?_of_not_plus (by simp [hplus, hw.plus])
    exact .none (hnone hp) (hnone hq)

/-- **Cutting before a word.** Two words are cut away alike, or stay alike. -/
theorem stripFrom_append_words (hp : IsWord p) (hq : IsWord q) (y : List Char) :
    stripFrom 0 (y ++ p) = stripFrom 0 (y ++ q) ∨
      ∃ z, stripFrom 0 (y ++ p) = z ++ p ∧ stripFrom 0 (y ++ q) = z ++ q := by
  induction hn : y.length using Nat.strongRecOn generalizing y with
  | ind n ih =>
    cases y with
    | nil =>
      refine Or.inr ⟨[], ?_, ?_⟩
      · exact stripFrom_eq_self hp.dot
      · exact stripFrom_eq_self hq.dot
    | cons c y =>
      have hstep : ∀ {w m}, localVersion? (c :: y ++ w) = some m →
          stripFrom 0 (c :: y ++ w) = m.base ++ stripFrom 0 ((y ++ w).drop (m.length - 1)) :=
          stripFrom_some
      cases ending hp hq (c :: y) with
      | none hnone hnone' =>
        have hcons : ∀ {w}, localVersion? (c :: y ++ w) = Option.none →
            stripFrom 0 (c :: y ++ w) = c :: stripFrom 0 (y ++ w) := stripFrom_none
        rw [hcons hnone, hcons hnone']
        rcases ih y.length (by simp at hn; omega) y rfl with h | ⟨z, hz, hz'⟩
        · exact Or.inl (by rw [h])
        · exact Or.inr ⟨c :: z, by rw [hz, List.cons_append], by rw [hz', List.cons_append]⟩
      | before m hlen hm hm' =>
        rw [List.length_cons] at hlen hn
        rw [hstep hm, hstep hm', List.drop_append_of_le_length (by omega),
          List.drop_append_of_le_length (by omega)]
        rcases ih (y.drop (m.length - 1)).length (by rw [List.length_drop]; omega) _ rfl with
          h | ⟨z, hz, hz'⟩
        · exact Or.inl (by rw [h])
        · exact Or.inr ⟨m.base ++ z, by rw [hz, List.append_assoc], by rw [hz', List.append_assoc]⟩
      | through base label hy hm hm' =>
        have hdrop : ∀ {w}, (y ++ w).drop (LocalVersion.length ⟨base, label ++ w⟩ - 1) = [] := by
          intro w
          rw [List.length_cons] at hy
          refine List.drop_eq_nil_of_le ?_
          simp only [LocalVersion.length, List.length_append]
          omega
        exact Or.inl (by rw [hstep hm, hstep hm', hdrop, hdrop])

end Rebadge.Version
