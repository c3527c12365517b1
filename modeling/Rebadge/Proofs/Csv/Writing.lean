import Rebadge.Proofs.Csv.Reading

/-!
# How rows are written

A field is written as it is or between quotes, where each of its own quotes is doubled; with a
comma, a quote or a line end in it there is no choice. Rows end at any of three line ends, blank
lines may stand around them, and the last row may do without a line end. Reading gives back the rows
that were written, whatever the choices (`Sheet.rows_text`).
-/

namespace Rebadge.Csv

/-! ## Fields -/

/-- The text with each quote written twice. -/
def doubleQuotes (s : List Char) : List Char :=
  s.flatMap fun c => if c = '"' then ['"', '"'] else [c]

/-- The text of a field, between quotes if that is asked for or if the field needs them. -/
def writeField (quote : Bool) (field : List Char) : List Char :=
  if quote || !field.all isOrdinary then '"' :: doubleQuotes field ++ ['"'] else field

variable {r : Reader} {c : Char} {st : State} {s : List Char} {row : Row}

theorem run_doubleQuotes (hst : r.state = .quoted) (s : List Char) :
    r.run (doubleQuotes s) = { r with field := r.field ++ s } := by
  induction s generalizing r with
  | nil => simp [doubleQuotes]
  | cons c s ih =>
    have hstep : r.run (if c = '"' then ['"', '"'] else [c]) =
        { r with field := r.field ++ [c] } := by
      by_cases hc : c = '"'
      · simp [hc, Reader.next, hst, step]
      · simp [hc, Reader.next, hst, step]
    have hrun := ih (r := { r with field := r.field ++ [c] }) hst
    rw [doubleQuotes, List.flatMap_cons, Reader.run_append, hstep]
    rw [doubleQuotes] at hrun
    rw [hrun]
    simp

/-- Where a field may begin. -/
def Begins (st : State) : Prop := st = .rowStart ∨ st = .fieldStart

/-- Where a field is complete if a comma or a line end follows. -/
def Completes (st : State) : Prop := st = .fieldStart ∨ st = .plain ∨ st = .quoteSeen

theorem Begins.step_quote (h : Begins st) : step st '"' = (.quoted, .skip) := by
  rcases h with rfl | rfl
  · rfl
  · rfl

theorem Completes.step_lineEnd (h : Completes st) (hc : isLineEnd c = true) :
    step st c = (.rowStart, .endRow) := by
  have hquote : c ≠ '"' := by
    rintro rfl
    exact absurd hc (by decide)
  rcases h with rfl | rfl | rfl
  · simp [step, hc]
  · simp [step, hc]
  · simp [step, hc, hquote]

/-- **A field** is read as it was before it was written. -/
theorem run_writeField (hst : Begins r.state) (hfield : r.field = [])
    (quote : Bool) (s : List Char) :
    ∃ st, (st = r.state ∨ Completes st) ∧
      r.run (writeField quote s) = { r with state := st, field := s } := by
  unfold writeField
  by_cases hquote : (quote || !s.all isOrdinary) = true
  · refine ⟨.quoteSeen, Or.inr (Or.inr (Or.inr rfl)), ?_⟩
    have hopen : r.next '"' = { r with state := .quoted } := by
      unfold Reader.next
      rw [hst.step_quote]
    rw [if_pos hquote, List.cons_append, Reader.run_cons, hopen, Reader.run_append,
      run_doubleQuotes rfl]
    simp [Reader.next, step, hfield]
  · rw [if_neg hquote]
    have hordinary : ∀ c ∈ s, isOrdinary c = true := by
      intro c hc
      rw [Bool.not_eq_true, Bool.or_eq_false_iff, Bool.not_eq_false', List.all_eq_true] at hquote
      exact hquote.2 c hc
    by_cases hs : s = []
    · exact ⟨r.state, Or.inl rfl, by rw [hs, Reader.run_nil, ← hfield]⟩
    · refine ⟨.plain, Or.inr (Or.inr (Or.inl rfl)), ?_⟩
      have hnot : r.state ≠ .quoted := by
        rcases hst with h | h
        · simp [h]
        · simp [h]
      rw [run_of_isOrdinary hs hordinary, if_neg hnot, hfield, List.nil_append]

theorem run_writeField_comma (hst : Begins r.state) (hfield : r.field = [])
    (quote : Bool) (s t : List Char) :
    r.run (writeField quote s ++ ',' :: t) =
      ({ r with state := .fieldStart, row := r.row ++ [s], field := [] } : Reader).run t := by
  obtain ⟨st, hst', hrun⟩ := run_writeField hst hfield quote s
  have hnot : st ≠ .quoted := by
    rcases hst' with rfl | rfl | rfl | rfl
    · rcases hst with h | h
      · simp [h]
      · simp [h]
    · simp
    · simp
    · simp
  rw [Reader.run_append, hrun, Reader.run_cons]
  unfold Reader.next
  rw [step_comma, if_neg hnot]

/-! ## Rows -/

/-- The text, read at the start of a row, leaves the reader with all fields of the row but for the
end of the last one. -/
def IsRowText (s : List Char) (row : Row) : Prop :=
  ∀ done, ∃ front last st, row = front ++ [last] ∧ Completes st ∧
    ({ done := done } : Reader).run s = { done := done, state := st, row := front, field := last }

theorem isRowText_three (q₁ q₂ q₃ : Bool) (f₁ f₂ f₃ : List Char) :
    IsRowText (writeField q₁ f₁ ++ ',' :: (writeField q₂ f₂ ++ ',' :: writeField q₃ f₃))
    [f₁, f₂, f₃] := by
  intro done
  rw [run_writeField_comma (Or.inl rfl) rfl, run_writeField_comma (Or.inr rfl) rfl]
  obtain ⟨st, hst, hrun⟩ := run_writeField
    (r := { done := done, state := .fieldStart, row := [f₁, f₂], field := [] })
    (Or.inr rfl) rfl q₃ f₃
  refine ⟨[f₁, f₂], f₃, st, rfl, ?_, hrun⟩
  rcases hst with rfl | hst
  · exact Or.inl rfl
  · exact hst

theorem IsRowText.rows (h : IsRowText s row) (done : List Row) :
    ({ done := done } : Reader).rows s = done ++ [row] := by
  obtain ⟨front, last, st, rfl, hst, hrun⟩ := h done
  have hrows := Reader.rows_append { done := done } s []
  rw [List.append_nil, hrun] at hrows
  rw [hrows]
  unfold Reader.rows
  rcases hst with rfl | rfl | rfl
  · rfl
  · rfl
  · rfl

/-! ## Line ends -/

/-- What a line ends with. -/
inductive LineEnd where
  | lineFeed
  | carriageReturn
  /-- A carriage return and a line feed. -/
  | both
deriving DecidableEq

def LineEnd.text : LineEnd → List Char
  | .lineFeed => ['\n']
  | .carriageReturn => ['\r']
  | .both => ['\r', '\n']

/-- The text of blank lines. -/
def blankText (blank : List LineEnd) : List Char := blank.flatMap LineEnd.text

theorem isLineEnd_of_mem_text {e : LineEnd} (h : c ∈ e.text) : isLineEnd c = true := by
  have hall : e.text.all isLineEnd = true := by cases e <;> rfl
  exact List.all_eq_true.1 hall c h

theorem LineEnd.exists_cons (e : LineEnd) : ∃ c t, e.text = c :: t := by
  cases e with
  | lineFeed => exact ⟨_, _, rfl⟩
  | carriageReturn => exact ⟨_, _, rfl⟩
  | both => exact ⟨_, _, rfl⟩

theorem run_lineEnds (h : ∀ c ∈ s, isLineEnd c = true) (done : List Row) :
    ({ done := done } : Reader).run s = { done := done } := by
  induction s with
  | nil => rfl
  | cons c s ih =>
    have hnext : ({ done := done } : Reader).next c = { done := done } := by
      simp [Reader.next, step, h c (by simp)]
    rw [Reader.run_cons, hnext]
    exact ih fun d hd => h d (by simp [hd])

theorem run_blankText (blank : List LineEnd) (done : List Row) :
    ({ done := done } : Reader).run (blankText blank) = { done := done } := by
  refine run_lineEnds (fun c hc => ?_) done
  obtain ⟨e, -, hc⟩ := List.mem_flatMap.1 hc
  exact isLineEnd_of_mem_text hc

/-- **A line** is one more row. -/
theorem IsRowText.run (h : IsRowText s row) (e : LineEnd) (done : List Row) :
    ({ done := done } : Reader).run (s ++ e.text) = { done := done ++ [row] } := by
  obtain ⟨front, last, st, rfl, hst, hrun⟩ := h done
  obtain ⟨c, t, htext⟩ := e.exists_cons
  have hc : isLineEnd c = true := isLineEnd_of_mem_text (e := e) (by simp [htext])
  have hnext : ({ done := done, state := st, row := front, field := last } : Reader).next c =
      { done := done ++ [front ++ [last]] } := by
    unfold Reader.next
    rw [hst.step_lineEnd hc]
  rw [Reader.run_append, hrun, htext, Reader.run_cons, hnext]
  exact run_lineEnds (fun d hd => isLineEnd_of_mem_text (e := e) (by simp [htext, hd])) _

/-! ## Sheets -/

/-- Rows with the line ends behind them. -/
structure Sheet (ρ : Type) where
  /-- Blank lines before the first row. -/
  blank : List LineEnd
  /-- Rows, each with the end of its line and the blank lines behind it. -/
  lines : List (ρ × LineEnd × List LineEnd)
  /-- A last row without a line end. -/
  last : Option ρ

namespace Sheet

variable {ρ : Type}

def rows (s : Sheet ρ) : List ρ := s.lines.map (·.1) ++ s.last.toList

def text (write : ρ → List Char) (s : Sheet ρ) : List Char :=
  blankText s.blank ++ (s.lines.flatMap (fun l => write l.1 ++ l.2.1.text ++ blankText l.2.2) ++
    s.last.toList.flatMap write)

theorem head?_text {write : ρ → List Char} (hne : ∀ x, write x ≠ []) (s : Sheet ρ)
    (hc : isLineEnd c = false) (h : (s.text write).head? = some c) :
    ∃ x ∈ s.rows.head?, (write x).head? = some c := by
  unfold text at h
  cases hblank : s.blank with
  | cons e blank =>
    obtain ⟨d, t, htext⟩ := e.exists_cons
    have hd : isLineEnd d = true := isLineEnd_of_mem_text (e := e) (by simp [htext])
    rw [hblank, blankText, List.flatMap_cons, htext, List.cons_append,
      List.cons_append, List.head?_cons, Option.some.injEq] at h
    rw [← h, hd] at hc
    exact absurd hc (by simp)
  | nil =>
    rw [hblank, blankText, List.flatMap_nil, List.nil_append] at h
    unfold rows
    cases hlines : s.lines with
    | cons l lines =>
      obtain ⟨d, t, hwrite⟩ := List.exists_cons_of_ne_nil (hne l.1)
      rw [hlines, List.flatMap_cons, hwrite] at h
      exact ⟨l.1, rfl, by rw [hwrite]; exact h⟩
    | nil =>
      cases hlast : s.last with
      | none => rw [hlines, hlast] at h; exact absurd h (by simp)
      | some x =>
        rw [hlines, hlast] at h
        exact ⟨x, rfl, by simpa using h⟩

theorem run_lines {write : ρ → List Char} {row : ρ → Row} (h : ∀ x, IsRowText (write x) (row x))
    (lines : List (ρ × LineEnd × List LineEnd)) (done : List Row) :
    ({ done := done } : Reader).run
    (lines.flatMap fun l => write l.1 ++ l.2.1.text ++ blankText l.2.2) =
      { done := done ++ lines.map (row ·.1) } := by
  induction lines generalizing done with
  | nil => simp
  | cons l lines ih =>
    rw [List.flatMap_cons, Reader.run_append, Reader.run_append, (h l.1).run,
      run_blankText, ih, List.map_cons, List.append_assoc, List.singleton_append]

/-- **Reading a sheet.** The rows that were written are read back, whatever the quotes, the line
ends and the blank lines, if the text does not start with a byte-order mark. -/
theorem rows_text {write : ρ → List Char} {row : ρ → Row} (h : ∀ x, IsRowText (write x) (row x))
    (s : Sheet ρ) (hmark : (s.text write).head? ≠ some '\uFEFF') :
    Csv.rows (s.text write) = s.rows.map row := by
  have hdrop : dropByteOrderMark (s.text write) = s.text write := by
    cases htext : s.text write with
    | nil => rfl
    | cons c t =>
      rw [htext, List.head?_cons, Ne, Option.some.injEq] at hmark
      exact if_neg hmark
  rw [rows_eq, hdrop]
  unfold text rows
  rw [Reader.rows_append, run_blankText, Reader.rows_append, run_lines h,
    List.nil_append, List.map_append, List.map_map]
  cases s.last with
  | none =>
    rw [Option.toList_none, List.flatMap_nil, Reader.rows_nil, List.map_nil, List.append_nil]
    rfl
  | some x =>
    rw [Option.toList_some, List.flatMap_singleton, (h x).rows]
    rfl

end Sheet

end Rebadge.Csv
