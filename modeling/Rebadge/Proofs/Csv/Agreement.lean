import Mathlib.Data.List.Forall2
import Rebadge.Proofs.Csv.Reading

/-!
# Readers of two versions of a text

Two texts agree but for what follows the path on the lines of one file. Their readers agree row by
row, except on rows that cannot be rows of that path: either another path stands first, or a line
end stands in the first field that differs. This holds as long as neither reader meets the path in
its place, at the start of a row (`Agree.line`).
-/

namespace Rebadge.Csv

variable {p : List Char}

/-! ## Agreement -/

/-- The field is not the one of this number in a row of the path without line ends. -/
def Spoils (p : List Char) (k : Nat) (field : List Char) : Prop := '\n' ∈ field ∨ k = 0 ∧ field ≠ p

/-- The open field will be such a field however it goes on. -/
def Stains (k : Nat) (field : List Char) : Prop := '\n' ∈ field ∨ k = 0 ∧ ',' ∈ field

/-- The rows are the same, or the first fields in which they differ spoil both. -/
inductive RowsAgree (p : List Char) : Row → Row → Prop where
  | same (row : Row) : RowsAgree p row row
  | spoilt {front rest rest' : Row} {f f' : List Char} : Spoils p front.length f →
      Spoils p front.length f' →
      RowsAgree p (front ++ f :: rest) (front ++ f' :: rest')

/-- The open rows will agree however they go on, and may differ already. -/
inductive OpenApart (p : List Char) (r r' : Reader) : Prop where
  | spoilt {front rest rest' : Row} {f f' : List Char} : Spoils p front.length f →
      Spoils p front.length f' →
      r.row = front ++ f :: rest → r'.row = front ++ f' :: rest' → OpenApart p r r'
  | stained : r.row = r'.row → Stains r.row.length r.field → Stains r.row.length r'.field →
    OpenApart p r r'

/-- The readers are in the same state, and their rows agree. -/
structure Agree (p : List Char) (r r' : Reader) : Prop where
  done : List.Forall₂ (RowsAgree p) r.done r'.done
  state : r.state = r'.state
  openRow : r.row = r'.row ∧ r.field = r'.field ∨ OpenApart p r r'

theorem Stains.append {k : Nat} {field : List Char} (h : Stains k field) (s : List Char) :
    Stains k (field ++ s) := by
  rcases h with h | ⟨hk, h⟩
  · exact Or.inl (List.mem_append_left s h)
  · exact Or.inr ⟨hk, List.mem_append_left s h⟩

theorem Stains.spoils {k : Nat} {field : List Char} (hp : ',' ∉ p) (h : Stains k field) :
    Spoils p k field := by
  rcases h with h | ⟨hk, h⟩
  · exact Or.inl h
  · exact Or.inr ⟨hk, fun heq => hp (heq ▸ h)⟩

theorem Agree.refl (p : List Char) (r : Reader) : Agree p r r where
  done := List.forall₂_same.2 fun row _ => .same row
  state := rfl
  openRow := Or.inl ⟨rfl, rfl⟩

/-- Rows that agree are both of the path or both of another one. -/
theorem RowsAgree.head_eq_iff {row row' : Row} (hp : '\n' ∉ p) (h : RowsAgree p row row') :
    row.head? = some p ↔ row'.head? = some p := by
  have hspoils : ∀ {f : List Char}, Spoils p 0 f → f ≠ p := by
    intro f hf heq
    rcases hf with hf | ⟨-, hf⟩
    · exact hp (heq ▸ hf)
    · exact hf heq
  cases h with
  | same => exact Iff.rfl
  | @spoilt front rest rest' f f' hf hf' =>
    cases front with
    | nil => simp [hspoils hf, hspoils hf']
    | cons g front => simp

/-! ## One character -/

theorem Agree.rowsAgree {r r' : Reader} (hp : ',' ∉ p) (h : Agree p r r') :
    RowsAgree p (r.row ++ [r.field]) (r'.row ++ [r'.field]) := by
  rcases h.openRow with ⟨hrow, hfield⟩ | hapart
  · rw [hrow, hfield]
    exact .same _
  · cases hapart with
    | spoilt hf hf' hrow hrow' =>
      rw [hrow, hrow', List.append_assoc, List.append_assoc]
      exact .spoilt hf hf'
    | stained hrow hs hs' =>
      rw [← hrow]
      exact .spoilt (hs.spoils hp) (hs'.spoils hp)

theorem OpenApart.next {r r' : Reader} (hp : ',' ∉ p) (h : OpenApart p r r')
    (hst : r.state = r'.state) (c : Char) (heff : (step r.state c).2 ≠ .endRow) :
    OpenApart p (r.next c) (r'.next c) := by
  unfold Reader.next
  rw [← hst]
  cases h with
  | spoilt hf hf' hrow hrow' =>
    cases he : (step r.state c).2 with
    | skip => exact .spoilt hf hf' hrow hrow'
    | extend => exact .spoilt hf hf' hrow hrow'
    | endField =>
      have happend : ∀ {front rest : Row} {f field : List Char},
          (front ++ f :: rest) ++ [field] = front ++ f :: (rest ++ [field]) := by simp
      exact .spoilt hf hf' ((congrArg (· ++ [r.field]) hrow).trans happend)
        ((congrArg (· ++ [r'.field]) hrow').trans happend)
    | endRow => exact absurd he heff
  | stained hrow hs hs' =>
    cases he : (step r.state c).2 with
    | skip => exact .stained hrow hs hs'
    | extend => exact .stained hrow (hs.append [c]) (hs'.append [c])
    | endField => exact .spoilt (hs.spoils hp) (hs'.spoils hp) rfl (by rw [hrow])
    | endRow => exact absurd he heff

/-- **Step.** The same character keeps the agreement. -/
theorem Agree.next {r r' : Reader} (hp : ',' ∉ p) (h : Agree p r r') (c : Char) :
    Agree p (r.next c) (r'.next c) := by
  have hdone : List.Forall₂ (RowsAgree p) (r.next c).done (r'.next c).done := by
    unfold Reader.next
    rw [← h.state]
    cases (step r.state c).2 with
    | skip => exact h.done
    | extend => exact h.done
    | endField => exact h.done
    | endRow => exact List.rel_append h.done (.cons (h.rowsAgree hp) .nil)
  have hstate : (r.next c).state = (r'.next c).state := by
    unfold Reader.next
    rw [← h.state]
    cases (step r.state c).2 <;> rfl
  refine ⟨hdone, hstate, ?_⟩
  by_cases heff : (step r.state c).2 = .endRow
  · unfold Reader.next
    rw [← h.state, heff]
    exact Or.inl ⟨rfl, rfl⟩
  · rcases h.openRow with ⟨hrow, hfield⟩ | hapart
    · unfold Reader.next
      rw [← h.state, hrow, hfield]
      cases (step r.state c).2 <;> exact Or.inl ⟨rfl, rfl⟩
    · exact Or.inr (hapart.next hp h.state c heff)

theorem Agree.run {r r' : Reader} (hp : ',' ∉ p) (h : Agree p r r') (s : List Char) :
    Agree p (r.run s) (r'.run s) := by
  induction s generalizing r r' with
  | nil => exact h
  | cons c s ih => exact ih (h.next hp c)

theorem Agree.rows {r r' : Reader} (hp : ',' ∉ p) (h : Agree p r r') :
    List.Forall₂ (RowsAgree p) (r.rows []) (r'.rows []) := by
  have hclose := List.rel_append h.done (.cons (h.rowsAgree hp) .nil)
  unfold Reader.rows
  rw [← h.state]
  cases r.state with
  | rowStart => simpa [read] using h.done
  | fieldStart => exact hclose
  | plain => exact hclose
  | quoted => exact hclose
  | quoteSeen => exact hclose

/-! ## One line -/

/-- The reader stands at the start of a line. -/
def LineStart (r : Reader) : Prop :=
  r.state = .rowStart ∧ r.row = [] ∧ r.field = [] ∨ r.state = .quoted ∧ '\n' ∈ r.field

/-- Nothing is read of a row that has not started. -/
def Clean (r : Reader) : Prop := r.state = .rowStart → r.row = [] ∧ r.field = []

theorem LineStart.clean {r : Reader} (h : LineStart r) : Clean r := by
  intro hst
  rcases h with ⟨-, hrow, hfield⟩ | ⟨hquoted, -⟩
  · exact ⟨hrow, hfield⟩
  · rw [hst] at hquoted
    exact absurd hquoted (by simp)

theorem Clean.next {r : Reader} (h : Clean r) (c : Char) : Clean (r.next c) := by
  unfold Clean Reader.next
  cases heff : (step r.state c).2 with
  | skip =>
    intro hst
    rcases effect_of_rowStart hst with he | ⟨hst, -⟩
    · rw [heff] at he
      exact absurd he (by simp)
    · exact h hst
  | extend =>
    intro hst
    rcases effect_of_rowStart hst with he | ⟨-, he⟩ <;> simp [heff] at he
  | endField =>
    intro hst
    rcases effect_of_rowStart hst with he | ⟨-, he⟩ <;> simp [heff] at he
  | endRow => exact fun _ => ⟨rfl, rfl⟩

theorem Clean.run {r : Reader} (h : Clean r) (s : List Char) : Clean (r.run s) := by
  induction s generalizing r with
  | nil => exact h
  | cons c s ih => exact ih (h.next c)

theorem Clean.lineStart {r : Reader} (h : Clean r) : LineStart (r.next '\n') := by
  unfold LineStart Reader.next
  cases hst : r.state with
  | rowStart =>
    obtain ⟨hrow, hfield⟩ := h hst
    exact Or.inl ⟨rfl, hrow, hfield⟩
  | fieldStart => exact Or.inl ⟨rfl, rfl, rfl⟩
  | plain => exact Or.inl ⟨rfl, rfl, rfl⟩
  | quoted => exact Or.inr ⟨rfl, by simp [step]⟩
  | quoteSeen => exact Or.inl ⟨rfl, rfl, rfl⟩

/-- Before its first comma a line goes on with the field that was open at its start, which holds a
line end, or with the first field of a row. -/
def InFirstField (r : Reader) : Prop := '\n' ∈ r.field ∨ r.row = []

theorem LineStart.inFirstField {r : Reader} (h : LineStart r) : InFirstField r := by
  rcases h with ⟨-, hrow, -⟩ | ⟨-, hmem⟩
  · exact Or.inr hrow
  · exact Or.inl hmem

theorem eq_comma_of_endField {st : State} {c : Char} (h : (step st c).2 = .endField) : c = ',' := by
  cases st
  all_goals
    simp only [step] at h
    split_ifs at h
    try assumption

theorem InFirstField.run {r : Reader} (h : InFirstField r) {s : List Char} (hs : ',' ∉ s) :
    InFirstField (r.run s) := by
  induction s generalizing r with
  | nil => exact h
  | cons c s ih =>
    rw [List.mem_cons, not_or] at hs
    refine ih ?_ hs.2
    unfold Reader.next InFirstField
    cases heff : (step r.state c).2 with
    | skip => exact h
    | extend => exact h.imp_left (List.mem_append_left [c])
    | endField => exact absurd (eq_comma_of_endField heff).symm hs.1
    | endRow => exact Or.inr rfl

/-- The reader has just read the path as the first field of a row. -/
def Meets (p : List Char) (r : Reader) : Prop := r.row = [p] ∧ r.field = []

theorem Meets.state {r : Reader} (h : Meets p (r.next ',')) : (r.next ',').state = .fieldStart := by
  obtain ⟨-, hfield⟩ := h
  unfold Reader.next at hfield ⊢
  rw [step_comma] at hfield ⊢
  by_cases hst : r.state = .quoted
  · rw [if_pos hst] at hfield
    exact absurd hfield (by simp)
  · rw [if_neg hst]

theorem Agree.meets {r r' : Reader} (hline : '\n' ∉ p) (h : Agree p r r') (hmeet : Meets p r) :
    Meets p r' := by
  obtain ⟨hrow, hfield⟩ := hmeet
  rcases h.openRow with ⟨h1, h2⟩ | hapart
  · exact ⟨by rw [← h1, hrow], by rw [← h2, hfield]⟩
  · cases hapart with
    | @spoilt front rest rest' f f' hf hf' h1 h2 =>
      rw [hrow] at h1
      cases front with
      | nil =>
        obtain ⟨rfl, -⟩ := List.cons.inj h1
        exact absurd hf (by simp [Spoils, hline])
      | cons g front => simp at h1
    | stained _ hs _ =>
      rw [hfield] at hs
      exact absurd hs (by simp [Stains])

/-- Behind the first comma of a line the rows may differ, unless the path was met. -/
theorem Agree.comma {r r' : Reader} (hp : ',' ∉ p) (h : Agree p r r') (hfirst : InFirstField r)
    (hmeet : ¬ Meets p (r.next ',')) : OpenApart p (r.next ',') (r'.next ',') := by
  rcases h.openRow with ⟨hrow, hfield⟩ | hapart
  · have hmeet' : r.state ≠ .quoted → r.row = [] → r.field ≠ p := by
      intro hst hnil heq
      refine hmeet ?_
      unfold Reader.next Meets
      rw [step_comma, if_neg hst, hnil, heq]
      exact ⟨rfl, rfl⟩
    unfold Reader.next
    rw [← h.state, step_comma, ← hrow, ← hfield]
    by_cases hst : r.state = .quoted
    · rw [if_pos hst]
      have hstain : Stains r.row.length (r.field ++ [',']) := by
        rcases hfirst with hmem | hnil
        · exact Or.inl (by simp [hmem])
        · exact Or.inr ⟨by simp [hnil], by simp⟩
      exact .stained rfl hstain hstain
    · rw [if_neg hst]
      have hspoil : Spoils p r.row.length r.field := by
        rcases hfirst with hmem | hnil
        · exact Or.inl hmem
        · exact Or.inr ⟨by simp [hnil], hmeet' hst hnil⟩
      exact .spoilt hspoil hspoil rfl rfl
  · refine hapart.next hp h.state ',' ?_
    rw [step_comma]
    split_ifs <;> simp

/-! ## Tails that differ -/

theorem OpenApart.run_of_isOrdinary {r r' : Reader} (h : OpenApart p r r') {s s' : List Char}
    (hne : s ≠ []) (hne' : s' ≠ []) (hs : ∀ c ∈ s, isOrdinary c = true)
    (hs' : ∀ c ∈ s', isOrdinary c = true) :
    OpenApart p (r.run s) (r'.run s') := by
  rw [Csv.run_of_isOrdinary hne hs, Csv.run_of_isOrdinary hne' hs']
  cases h with
  | spoilt hf hf' hrow hrow' => exact .spoilt hf hf' hrow hrow'
  | stained hrow hst hst' => exact .stained hrow (hst.append s) (hst'.append s')

/-- Two fields of ordinary characters. -/
structure Tail (t : List Char) : Prop where
  exists_fields : ∃ d n, t = d ++ ',' :: n ∧ d ≠ [] ∧ n ≠ [] ∧ (∀ c ∈ d, isOrdinary c = true) ∧
    ∀ c ∈ n, isOrdinary c = true

/-- Different tails behind a comma keep readers in agreement whose rows may differ. -/
theorem Agree.run_tail {r r' : Reader} (hp : ',' ∉ p) (h : Agree p r r') (hapart : OpenApart p r r')
    {t t' : List Char} (ht : Tail t) (ht' : Tail t') : Agree p (r.run t) (r'.run t') := by
  obtain ⟨d, n, rfl, hd, hn, hod, hon⟩ := ht.exists_fields
  obtain ⟨d', n', rfl, hd', hn', hod', hon'⟩ := ht'.exists_fields
  have hfield : ∀ {r r' : Reader} {s s' : List Char}, Agree p r r' → OpenApart p r r' → s ≠ [] →
      s' ≠ [] →
      (∀ c ∈ s, isOrdinary c = true) → (∀ c ∈ s', isOrdinary c = true) →
      Agree p (r.run s) (r'.run s') ∧ OpenApart p (r.run s) (r'.run s') := by
    intro r r' s s' h hapart hs hs' hos hos'
    have happ := hapart.run_of_isOrdinary hs hs' hos hos'
    refine ⟨⟨?_, ?_, Or.inr happ⟩, happ⟩
    · rw [run_of_isOrdinary hs hos, run_of_isOrdinary hs' hos']
      exact h.done
    · rw [run_of_isOrdinary hs hos, run_of_isOrdinary hs' hos', h.state]
  obtain ⟨h1, hapart1⟩ := hfield h hapart hd hd' hod hod'
  have h2 := h1.next hp ','
  have hapart2 := hapart1.next hp h1.state ',' (by rw [step_comma]; split_ifs <;> simp)
  rw [Reader.run_append, Reader.run_append, Reader.run_cons, Reader.run_cons]
  exact (hfield h2 hapart2 hn hn' hon hon').1

theorem run_tail {r : Reader} (hst : r.state = .fieldStart) {d n : List Char}
    (hd : d ≠ []) (hn : n ≠ []) (hod : ∀ c ∈ d, isOrdinary c = true)
    (hon : ∀ c ∈ n, isOrdinary c = true) :
    r.run (d ++ ',' :: n) =
      { done := r.done, state := .plain, row := r.row ++ [r.field ++ d], field := n } := by
  rw [Reader.run_append, run_of_isOrdinary hd hod, hst, Reader.run_cons, run_of_isOrdinary hn hon]
  rfl

theorem next_lineFeed {r : Reader} (hst : r.state = .plain) :
    r.next '\n' = { done := r.done ++ [r.row ++ [r.field]] } := by
  unfold Reader.next
  rw [hst]
  rfl

/-- **A line.** Readers that agree at the start of a line agree at its end, when both read the same
line or lines that differ in their tails behind the first comma only, unless the path is met
there. -/
theorem Agree.line {r r' : Reader} (hp : ',' ∉ p) (h : Agree p r r')
    (hstart : LineStart r) {u u' : List Char}
    (hu : u = u' ∨ ∃ s t t', u = s ++ ',' :: t ∧ u' = s ++ ',' :: t' ∧ ',' ∉ s ∧ Tail t ∧ Tail t' ∧
      ¬ Meets p (r.run (s ++ [',']))) : Agree p (r.run u) (r'.run u') := by
  rcases hu with rfl | ⟨s, t, t', rfl, rfl, hs, ht, ht', hmeet⟩
  · exact h.run hp u
  · have h1 := h.run hp s
    have hfirst := hstart.inFirstField.run hs
    rw [Reader.run_append, Reader.run_cons, Reader.run_nil] at hmeet
    rw [Reader.run_append, Reader.run_append, Reader.run_cons, Reader.run_cons]
    exact (h1.next hp ',').run_tail hp (h1.comma hp hfirst hmeet) ht ht'

end Rebadge.Csv
