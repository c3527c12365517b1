import Mathlib.Data.List.Induction
import Rebadge.Proofs.Csv.Agreement
import Rebadge.Proofs.Record.Lines

/-!
# When the fork's record is fresh

The rewriter takes the lines of a record apart at line feeds and commas, a reader takes it as rows
of fields that may be quoted. A replaced file gets the digest and the size of its new content
exactly if a reader of the fork's record first meets its path at the start of a line `path,…` of the
record (`ReadFirst`). On all other records there is a content for which it does not.
-/

namespace Rebadge.Record

open Csv (Reader Meets Agree RowsAgree LineStart)

variable {c : Config} {replaced : List (String × Bytes)} {path : String}

/-! ## The condition -/

/-- The line of the fork for a line of the record. -/
def outLine (c : Config) (replaced : List (String × Bytes)) (line : List Char) : List Char :=
  renamed c (forkLine c.digestEncoding replaced line)

/-- The text of the fork's record for the lines before another one. -/
def textBefore (c : Config) (replaced : List (String × Bytes))
    (before : List (List Char)) : List Char :=
  before.flatMap fun line => outLine c replaced line ++ ['\n']

/-- A reader of the fork's record behind the path and the comma of the line after the given ones. -/
def readerAt (c : Config) (replaced : List (String × Bytes)) (path : String)
    (before : List (List Char)) : Reader :=
  Reader.run {}
    (Csv.dropByteOrderMark (textBefore c replaced before ++ (renamed c path.toList ++ [','])))

/-- The line starts with the path and a comma. -/
def IsLineOf (path : String) (line : List Char) : Prop := ',' ∈ line ∧ pathOf line = path.toList

/-- A reader of the fork's record first meets the path at the start of a line of the record. -/
def ReadFirst (c : Config) (replaced : List (String × Bytes)) (text path : String) : Prop :=
  ∃ before line after, Chars.split '\n' text.toList = before ++ line :: after ∧ IsLineOf path line ∧
    Meets (renamed c path.toList) (readerAt c replaced path before) ∧
    ∀ row ∈ (readerAt c replaced path before).done, row.head? ≠ some (renamed c path.toList)

/-- The replaced files with another content for one of them. -/
def withContent (replaced : List (String × Bytes)) (path : String) (content : Bytes) :
    List (String × Bytes) :=
  replaced.map fun r => if r.1 = path then (path, content) else r

/-! ## Lines of two contents -/

theorem find?_withContent (replaced : List (String × Bytes)) (path : String) (content : Bytes)
    (line : List Char) :
    (withContent replaced path content).find? (fun r => r.1.toList == pathOf line) =
      (replaced.find? fun r => r.1.toList == pathOf line).map
        fun r => if r.1 = path then (path, content) else r := by
  unfold withContent
  rw [List.find?_map]
  congr 1
  congr 1
  funext r
  by_cases hr : r.1 = path
  · simp [hr]
  · simp [hr]

theorem outLine_withContent {line : List Char} (h : ¬ IsLineOf path line) (content : Bytes) :
    outLine c (withContent replaced path content) line = outLine c replaced line := by
  unfold outLine forkLine
  rw [find?_withContent]
  cases hfind : replaced.find? fun r => r.1.toList == pathOf line with
  | none => rfl
  | some r =>
    have hr : r.1.toList = pathOf line := by simpa using List.find?_some hfind
    by_cases hpath : r.1 = path
    · have hcomma : ',' ∉ line := fun hmem => h ⟨hmem, by rw [← hr, hpath]⟩
      simp [hpath, hcomma]
    · simp [hpath]

theorem find?_of_isLineOf (hmem : path ∈ replaced.map Prod.fst) {line : List Char}
    (h : IsLineOf path line) :
    ∃ content, replaced.find? (fun r => r.1.toList == pathOf line) = some (path, content) := by
  obtain ⟨r, hr, hrpath⟩ := List.mem_map.1 hmem
  cases hfind : replaced.find? fun r => r.1.toList == pathOf line with
  | none =>
    have := List.find?_eq_none.1 hfind r hr
    simp [hrpath, h.2] at this
  | some q =>
    have hq := List.find?_some hfind
    rw [beq_iff_eq, h.2] at hq
    exact ⟨q.2, by rw [← String.toList_inj.1 hq]⟩

theorem outLine_of_find? (hc : c.NamesValid) (henc : c.digestEncoding = .standard)
    {line : List Char} (h : IsLineOf path line) {content : Bytes}
    (hfind : replaced.find? (fun r => r.1.toList == pathOf line) = some (path, content)) :
    outLine c replaced line = renamed c path.toList ++ ',' :: freshTail content := by
  unfold outLine forkLine
  simp only [hfind, henc]
  rw [if_pos (by simpa using h.1), renamed_freshLine hc]

theorem exists_outLine_eq (hc : c.NamesValid) (henc : c.digestEncoding = .standard)
    (hmem : path ∈ replaced.map Prod.fst) {line : List Char} (h : IsLineOf path line) :
    ∃ content, outLine c replaced line = renamed c path.toList ++ ',' :: freshTail content := by
  obtain ⟨content, hfind⟩ := find?_of_isLineOf hmem h
  exact ⟨content, outLine_of_find? hc henc h hfind⟩

theorem outLine_withContent_own (hc : c.NamesValid) (henc : c.digestEncoding = .standard)
    (hmem : path ∈ replaced.map Prod.fst) {line : List Char}
    (h : IsLineOf path line) (content : Bytes) :
    outLine c (withContent replaced path content) line =
      renamed c path.toList ++ ',' :: freshTail content := by
  obtain ⟨old, hfind⟩ := find?_of_isLineOf hmem h
  refine outLine_of_find? hc henc h ?_
  rw [find?_withContent, hfind, Option.map_some, if_pos rfl]

theorem isOrdinary_of_isPlain {x : Char} (h : isPlain x = true) : Csv.isOrdinary x = true := by
  have h1 : x ≠ '\n' := ne_of_isPlain h (by decide)
  have h2 : x ≠ '\r' := ne_of_isPlain h (by decide)
  have h3 : x ≠ '"' := ne_of_isPlain h (by decide)
  have h4 : x ≠ ',' := ne_of_isPlain h (by decide)
  simp [Csv.isOrdinary, Csv.isLineEnd, h1, h2, h3, h4]

theorem tail_freshTail (content : Bytes) : Csv.Tail (freshTail content) :=
  ⟨_, _, rfl, Digest.ofContent_ne_empty content .standard, toString_ne_nil _,
    fun _ hx => isOrdinary_of_isPlain (isPlain_of_mem_digest hx),
    fun _ hx => isOrdinary_of_isPlain (isPlain_of_mem_size hx)⟩

/-! ## Readers of two contents -/

theorem textBefore_concat (c : Config) (replaced : List (String × Bytes))
    (before : List (List Char)) (line : List Char) : textBefore c replaced (before ++ [line]) =
      textBefore c replaced before ++ outLine c replaced line ++ ['\n'] := by
  simp [textBefore]

/-- What a reader sees of a text that comes after the given lines. -/
def afterLines (before : List (List Char)) (s : List Char) : List Char :=
  if before = [] then Csv.dropByteOrderMark s else s

theorem dropByteOrderMark_append (before : List (List Char)) (s : List Char) :
    Csv.dropByteOrderMark (textBefore c replaced before ++ s) =
      Csv.dropByteOrderMark (textBefore c replaced before) ++ afterLines before s := by
  unfold afterLines
  cases before with
  | nil => rfl
  | cons line before =>
    have hne : textBefore c replaced (line :: before) ≠ [] := by simp [textBefore]
    cases htext : textBefore c replaced (line :: before) with
    | nil => exact absurd htext hne
    | cons x text =>
      simp only [List.cons_append, Csv.dropByteOrderMark, reduceCtorEq, if_false]
      split <;> rfl

theorem afterLines_append_comma (before : List (List Char)) (s t : List Char) :
    afterLines before (s ++ ',' :: t) = afterLines before s ++ ',' :: t := by
  unfold afterLines
  by_cases hb : before = []
  · rw [if_pos hb, if_pos hb]
    cases s with
    | nil =>
      show (if ',' = '\uFEFF' then t else ',' :: t) = ',' :: t
      rw [if_neg (by decide)]
    | cons x s =>
      simp only [List.cons_append, Csv.dropByteOrderMark]
      split <;> rfl
  · rw [if_neg hb, if_neg hb]

theorem mem_of_mem_afterLines {before : List (List Char)} {s : List Char} {x : Char}
    (h : x ∈ afterLines before s) : x ∈ s := by
  unfold afterLines at h
  by_cases hb : before = []
  · rw [if_pos hb] at h
    cases s with
    | nil => exact h
    | cons y s =>
      simp only [Csv.dropByteOrderMark] at h
      split at h
      · exact List.mem_cons_of_mem y h
      · exact h
  · rwa [if_neg hb] at h

/-- The reader of the fork's record at the start of the line after the given ones. -/
def lineReader (c : Config) (replaced : List (String × Bytes))
    (before : List (List Char)) : Reader :=
  Reader.run {} (Csv.dropByteOrderMark (textBefore c replaced before))

theorem lineReader_nil (c : Config) (replaced : List (String × Bytes)) :
    lineReader c replaced [] = {} := rfl

theorem run_dropByteOrderMark (before : List (List Char)) (s : List Char) :
    Reader.run {} (Csv.dropByteOrderMark (textBefore c replaced before ++ s)) =
      (lineReader c replaced before).run (afterLines before s) := by
  rw [dropByteOrderMark_append, Reader.run_append]
  rfl

theorem lineReader_concat (before : List (List Char)) (line : List Char) :
    lineReader c replaced (before ++ [line]) =
      ((lineReader c replaced before).run (afterLines before (outLine c replaced line))).next
      '\n' := by
  have happend : ∀ s : List Char, Csv.dropByteOrderMark (s ++ ['\n']) = Csv.dropByteOrderMark s ++
      ['\n'] := by
    intro s
    cases s with
    | nil => rfl
    | cons x s =>
      simp only [List.cons_append, Csv.dropByteOrderMark]
      split <;> rfl
  unfold lineReader
  rw [textBefore_concat, happend, Reader.run_append, run_dropByteOrderMark]
  rfl

section

variable (hc : c.NamesValid) (henc : c.digestEncoding = .standard)
  (hmem : path ∈ replaced.map Prod.fst)
include hc henc hmem

/-- Readers of the records for two contents agree behind a line, if they do before it and do not
meet the path there. -/
theorem agree_line (hcomma : ',' ∉ renamed c path.toList) (content : Bytes)
    {before : List (List Char)} (h : Agree (renamed c path.toList) (lineReader c replaced before)
      (lineReader c (withContent replaced path content) before))
    (hstart : LineStart (lineReader c replaced before)) {line : List Char}
    (hmeet : IsLineOf path line →
      ¬ Meets (renamed c path.toList) (readerAt c replaced path before)) :
    Agree (renamed c path.toList)
      ((lineReader c replaced before).run (afterLines before (outLine c replaced line)))
      ((lineReader c (withContent replaced path content) before).run
        (afterLines before (outLine c (withContent replaced path content) line))) := by
  refine h.line hcomma hstart ?_
  by_cases hline : IsLineOf path line
  · obtain ⟨old, hold⟩ := exists_outLine_eq hc henc hmem hline
    refine Or.inr ⟨afterLines before (renamed c path.toList), freshTail old,
      freshTail content, ?_, ?_, fun hin => hcomma (mem_of_mem_afterLines hin), tail_freshTail old,
      tail_freshTail content, ?_⟩
    · rw [hold, afterLines_append_comma]
    · rw [outLine_withContent_own hc henc hmem hline, afterLines_append_comma]
    · have hno := hmeet hline
      unfold readerAt at hno
      rwa [run_dropByteOrderMark, afterLines_append_comma] at hno
  · rw [outLine_withContent hline]
    exact Or.inl rfl

/-- **Run.** The readers agree as long as the path was not met. -/
theorem agree_lines (hcomma : ',' ∉ renamed c path.toList) (content : Bytes)
    (lines : List (List Char))
    (hmeet : ∀ before line after, lines = before ++ line :: after → IsLineOf path line →
      ¬ Meets (renamed c path.toList) (readerAt c replaced path before)) :
    Agree (renamed c path.toList) (lineReader c replaced lines)
        (lineReader c (withContent replaced path content) lines) ∧
      LineStart (lineReader c replaced lines) := by
  induction lines using List.reverseRecOn with
  | nil =>
    rw [lineReader_nil, lineReader_nil]
    exact ⟨Agree.refl _ _, Or.inl ⟨rfl, rfl, rfl⟩⟩
  | append_singleton lines line ih =>
    obtain ⟨hagree, hstart⟩ := ih fun before l after hl =>
      hmeet before l (after ++ [line]) (by rw [hl, List.append_assoc, List.cons_append])
    have hline := agree_line hc henc hmem hcomma content hagree hstart
      (hmeet lines line [] rfl)
    rw [lineReader_concat, lineReader_concat]
    exact ⟨hline.next hcomma '\n', (hstart.clean.run _).lineStart⟩

end

end Rebadge.Record
