import Mathlib.Tactic.SplitIfs
import Rebadge.Csv
import Rebadge.Proofs.Text.Separator

/-!
# How rows are read

The reader is an automaton: what it does next depends on its state and on the next character only
(`step`), and `Reader.run` carries the complete rows and the open one along (`Reader.rows_append`).
A line that does not end between quotes is read by itself (`read_append_lineFeed`), so the rows of
such lines are the rows of the text (`read_join`). Without quotes and carriage returns a line is one
row, split at its commas (`lineRows_plain`).
-/

namespace Rebadge.Csv

/-! ## The automaton -/

/-- What a character does to the open row and field. -/
inductive Effect where
  /-- The character is dropped. -/
  | skip
  /-- The character goes on with the field. -/
  | extend
  /-- The field is complete. -/
  | endField
  /-- The field and the row are complete. -/
  | endRow
deriving DecidableEq

/-- The state after a character, and what the character does. -/
def step : State → Char → State × Effect
  | .quoted, c => if c = '"' then (.quoteSeen, .skip) else (.quoted, .extend)
  | .rowStart, c =>
    if isLineEnd c then (.rowStart, .skip)
    else if c = '"' then (.quoted, .skip)
    else if c = ',' then (.fieldStart, .endField)
    else (.plain, .extend)
  | .fieldStart, c =>
    if isLineEnd c then (.rowStart, .endRow)
    else if c = '"' then (.quoted, .skip)
    else if c = ',' then (.fieldStart, .endField)
    else (.plain, .extend)
  | .plain, c =>
    if isLineEnd c then (.rowStart, .endRow)
    else if c = ',' then (.fieldStart, .endField)
    else (.plain, .extend)
  | .quoteSeen, c =>
    if c = '"' then (.quoted, .extend)
    else if isLineEnd c then (.rowStart, .endRow)
    else if c = ',' then (.fieldStart, .endField)
    else (.plain, .extend)

theorem read_cons (st : State) (row : Row) (field : List Char) (c : Char) (s : List Char) :
    read st row field (c :: s) =
      match (step st c).2 with
      | .skip => read (step st c).1 row field s
      | .extend => read (step st c).1 row (field ++ [c]) s
      | .endField => read (step st c).1 (row ++ [field]) [] s
      | .endRow => (row ++ [field]) :: read (step st c).1 [] [] s := by
  cases st
  all_goals
    simp only [read, step]
    split_ifs <;> rfl

/-- The state after a text. -/
def stateAfter (st : State) (s : List Char) : State := s.foldl (fun st c => (step st c).1) st

@[simp] theorem stateAfter_nil (st : State) : stateAfter st [] = st := rfl

@[simp] theorem stateAfter_cons (st : State) (c : Char) (s : List Char) :
    stateAfter st (c :: s) = stateAfter (step st c).1 s := rfl

/-- Before a row stands the start, an end of a row or a blank line. -/
theorem effect_of_rowStart {st : State} {c : Char} (h : (step st c).1 = .rowStart) :
    (step st c).2 = .endRow ∨ st = .rowStart ∧ (step st c).2 = .skip := by
  cases st
  all_goals
    simp only [step] at h ⊢
    split_ifs at h ⊢ <;> simp

/-- What was read so far. -/
structure Reader where
  /-- The complete rows. -/
  done : List Row := []
  state : State := .rowStart
  /-- The complete fields of the open row. -/
  row : Row := []
  /-- The characters of the open field. -/
  field : List Char := []

namespace Reader

/-- The reader after one more character. -/
def next (r : Reader) (c : Char) : Reader :=
  match (step r.state c).2 with
  | .skip => { r with state := (step r.state c).1 }
  | .extend => { r with state := (step r.state c).1, field := r.field ++ [c] }
  | .endField => { r with state := (step r.state c).1, row := r.row ++ [r.field], field := [] }
  | .endRow =>
    { done := r.done ++ [r.row ++ [r.field]], state := (step r.state c).1, row := [], field := [] }

/-- The reader after a text. -/
def run (r : Reader) (s : List Char) : Reader := s.foldl next r

@[simp] theorem run_nil (r : Reader) : r.run [] = r := rfl

@[simp] theorem run_cons (r : Reader) (c : Char) (s : List Char) :
    r.run (c :: s) = (r.next c).run s := rfl

theorem run_append (r : Reader) (s t : List Char) :
    r.run (s ++ t) = (r.run s).run t := List.foldl_append

theorem done_prefix_run (r : Reader) (s : List Char) : r.done <+: (r.run s).done := by
  induction s generalizing r with
  | nil => exact List.prefix_refl _
  | cons c s ih =>
    refine List.IsPrefix.trans ?_ (ih (r.next c))
    unfold next
    cases (step r.state c).2 with
    | skip => exact List.prefix_refl _
    | extend => exact List.prefix_refl _
    | endField => exact List.prefix_refl _
    | endRow => exact List.prefix_append _ _

/-- The rows of the text when the rest of it is given. -/
def rows (r : Reader) (rest : List Char) : List Row := r.done ++ read r.state r.row r.field rest

theorem rows_nil (done : List Row) : ({ done := done } : Reader).rows [] = done :=
  List.append_nil done

theorem rows_cons (r : Reader) (c : Char) (s : List Char) :
    r.rows (c :: s) = (r.next c).rows s := by
  unfold rows next
  rw [read_cons]
  cases (step r.state c).2
  · rfl
  · rfl
  · rfl
  · simp

theorem rows_append (r : Reader) (s t : List Char) : r.rows (s ++ t) = (r.run s).rows t := by
  induction s generalizing r with
  | nil => rfl
  | cons c s ih => rw [List.cons_append, rows_cons, run_cons, ih]

end Reader

theorem rows_eq (s : List Char) : rows s = Reader.rows {} (dropByteOrderMark s) := rfl

theorem step_comma (st : State) :
    step st ',' = if st = .quoted then (.quoted, .extend) else (.fieldStart, .endField) := by
  cases st <;> rfl

/-! ## Ordinary characters -/

/-- The characters that the reader takes for themselves. -/
def isOrdinary (c : Char) : Bool := !isLineEnd c && c != '"' && c != ','

theorem step_of_isOrdinary {c : Char} (h : isOrdinary c = true) (st : State) :
    step st c = (if st = .quoted then .quoted else .plain, .extend) := by
  simp only [isOrdinary, Bool.and_eq_true, Bool.not_eq_true', bne_iff_ne] at h
  cases st <;> simp [step, h]

theorem run_of_isOrdinary {s : List Char} (hne : s ≠ []) (h : ∀ c ∈ s, isOrdinary c = true)
    (r : Reader) :
    r.run s = { r with
      state := if r.state = .quoted then .quoted else .plain
      field := r.field ++ s } := by
  induction s generalizing r with
  | nil => exact absurd rfl hne
  | cons c s ih =>
    have hnext : r.next c = { r with
        state := if r.state = .quoted then .quoted else .plain
        field := r.field ++ [c] } := by
      unfold Reader.next
      rw [step_of_isOrdinary (h c (by simp))]
    rw [Reader.run_cons, hnext]
    by_cases hs : s = []
    · rw [hs, Reader.run_nil]
    · rw [ih hs fun d hd => h d (by simp [hd])]
      by_cases hst : r.state = .quoted <;> simp [hst]

/-! ## Lines -/

/-- **A line by itself.** Where a line does not end between quotes, what follows is read as if the
text started there. -/
theorem read_append_lineFeed {st : State} {row : Row} {field : List Char}
    {a : List Char} (b : List Char) (hrow : st = .rowStart → row = [] ∧ field = [])
    (ha : stateAfter st a ≠ .quoted) :
    read st row field (a ++ '\n' :: b) = read st row field a ++ read .rowStart [] [] b := by
  induction a generalizing st row field with
  | nil =>
    cases st with
    | quoted => exact absurd rfl ha
    | rowStart =>
      obtain ⟨rfl, rfl⟩ := hrow rfl
      rfl
    | fieldStart => rfl
    | plain => rfl
    | quoteSeen => rfl
  | cons c a ih =>
    rw [stateAfter_cons] at ha
    have hstart : ∀ {row' field'}, (step st c).2 ≠ .endRow →
        ((step st c).2 = .skip → row' = row ∧ field' = field) →
        (step st c).1 = .rowStart → row' = [] ∧ field' = [] := by
      intro row' field' hend hskip h
      obtain ⟨hst, heff⟩ := (effect_of_rowStart h).resolve_left hend
      rw [(hskip heff).1, (hskip heff).2]
      exact hrow hst
    rw [List.cons_append, read_cons, read_cons]
    cases heff : (step st c).2 with
    | skip => exact ih (hstart (by simp [heff]) fun _ => ⟨rfl, rfl⟩) ha
    | extend => exact ih (hstart (by simp [heff]) (by simp [heff])) ha
    | endField => exact ih (hstart (by simp [heff]) (by simp [heff])) ha
    | endRow => exact congrArg _ (ih (fun _ => ⟨rfl, rfl⟩) ha)

/-- The rows of a line that is read by itself. -/
def lineRows (line : List Char) : List Row := read .rowStart [] [] line

/-- The rows of lines that do not end between quotes are those of the lines by themselves. -/
theorem read_join (lines : List (List Char))
    (h : ∀ line ∈ lines, stateAfter .rowStart line ≠ .quoted) :
    read .rowStart [] [] (Chars.join '\n' lines) = lines.flatMap lineRows := by
  induction lines with
  | nil => rfl
  | cons line lines ih =>
    by_cases hl : lines = []
    · rw [hl, Chars.join_singleton, List.flatMap_singleton, lineRows]
    · rw [Chars.join_cons '\n' line hl,
        read_append_lineFeed _ (fun _ => ⟨rfl, rfl⟩) (h line (by simp)),
        ih fun l hm => h l (by simp [hm]), List.flatMap_cons, lineRows]

/-! ## Texts without quotes -/

theorem stateAfter_ne_quoted {s : List Char} (h : '"' ∉ s) {st : State} (hst : st ≠ .quoted) :
    stateAfter st s ≠ .quoted := by
  induction s generalizing st with
  | nil => exact hst
  | cons c s ih =>
    rw [List.mem_cons, not_or] at h
    refine ih h.2 ?_
    cases st with
    | quoted => exact absurd rfl hst
    | rowStart => simp only [step, if_neg (Ne.symm h.1)]; split_ifs <;> simp
    | fieldStart => simp only [step, if_neg (Ne.symm h.1)]; split_ifs <;> simp
    | plain => simp only [step]; split_ifs <;> simp
    | quoteSeen => simp only [step, if_neg (Ne.symm h.1)]; split_ifs <;> simp

/-- Where a field may begin or continue without quotes, the rest of a line goes on with the open
field and is split at its commas. -/
theorem read_plain {s : List Char} (hquote : '"' ∉ s) (hend : ∀ c ∈ s, isLineEnd c = false)
    {st : State} (hst : st = .fieldStart ∨ st = .plain) (row : Row) (field : List Char) :
    read st row field s =
      [row ++ (Chars.split ',' s).modifyHead (field ++ ·)] := by
  induction s generalizing st row field with
  | nil => rcases hst with rfl | rfl <;> simp [read, Chars.split]
  | cons c s ih =>
    rw [List.mem_cons, not_or] at hquote
    have hc : isLineEnd c = false := hend c (by simp)
    have hs : ∀ d ∈ s, isLineEnd d = false := fun d hd => hend d (by simp [hd])
    have hstep : read st row field (c :: s) = if c = ',' then read .fieldStart (row ++ [field]) [] s
        else read .plain row (field ++ [c]) s := by
      rcases hst with rfl | rfl <;> simp [read, hc, Ne.symm hquote.1]
    rw [hstep, Chars.split]
    by_cases hcomma : c = ','
    · rw [if_pos hcomma, if_pos hcomma, ih hquote.2 hs (Or.inl rfl)]
      cases Chars.split ',' s <;> simp
    · rw [if_neg hcomma, if_neg hcomma, ih hquote.2 hs (Or.inr rfl)]
      cases hp : Chars.split ',' s with
      | nil => exact absurd hp (Chars.split_ne_nil ',' s)
      | cons p ps => simp

/-- A line without quotes and line ends is one row, unless it is empty. -/
theorem lineRows_plain {line : List Char} (hquote : '"' ∉ line)
    (hend : ∀ c ∈ line, isLineEnd c = false) :
    lineRows line = if line = [] then [] else [Chars.split ',' line] := by
  cases line with
  | nil => rfl
  | cons c s =>
    have hstart : lineRows (c :: s) = read .fieldStart [] [] (c :: s) := by
      have hc : isLineEnd c = false := hend c (by simp)
      simp [lineRows, read, hc]
    rw [hstart, read_plain hquote hend (Or.inl rfl), if_neg (by simp)]
    cases Chars.split ',' (c :: s) <;> simp

end Rebadge.Csv
