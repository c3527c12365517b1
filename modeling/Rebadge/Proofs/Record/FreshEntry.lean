import Rebadge.Proofs.Record.Fresh

/-!
# The entries of fresh lines

From the readers of the fork's record for several contents of one file to the entries that they
find. If the path is read first on a line of its own, the entry there is fresh for every content;
otherwise two contents of different sizes would have to have the same entry
(`AlwaysFresh.readFirst`).
-/

namespace Rebadge.Record

open Csv (Reader Meets Agree RowsAgree Row)

variable {c : Config} {replaced : List (String × Bytes)} {path : String}

/-! ## Entries of rows -/

/-- The first entry of a path among the rows. -/
def found (rows : List Row) (p : List Char) : Option RecordEntry :=
  (rows.filterMap entry?).find? (·.path == .ofList p)

theorem find?_parse (text path : String) :
    (parse text).find? path = found (Csv.rows text.toList) path.toList := by
  unfold find? found parse
  rw [String.ofList_toList]

theorem entry?_eq_some {row : Row} {e : RecordEntry} : entry? row = some e ↔
    row.headD [] ≠ [] ∧ e.path = .ofList (row.headD []) ∧
      e.digest = (if (row[1]?).getD [] = [] then none else some (.ofList ((row[1]?).getD []))) ∧
      e.size = (row[2]?).bind size? := by
  unfold entry?
  generalize row.headD [] = path
  by_cases hnil : path = []
  · simp [hnil]
  · simp only [hnil, if_false, Option.some.injEq, ne_eq, not_false_eq_true, true_and]
    constructor
    · rintro rfl
      exact ⟨rfl, rfl, rfl⟩
    · rintro ⟨h1, h2, h3⟩
      rw [← h1, ← h2, ← h3]

theorem found_cons_of_ne {row : Row} {p : List Char} (h : row.head? ≠ some p) (rows : List Row) :
    found (row :: rows) p = found rows p := by
  unfold found
  cases he : entry? row with
  | none => rw [List.filterMap_cons_none he]
  | some e =>
    obtain ⟨hne, hpath, -⟩ := entry?_eq_some.1 he
    have hnot : (e.path == String.ofList p) = false := by
      rw [hpath, beq_eq_false_iff_ne]
      intro heq
      have hhead : row.headD [] = p := String.ofList_inj.1 heq
      cases row with
      | nil => exact hne rfl
      | cons f row => exact h (congrArg some hhead)
    rw [List.filterMap_cons_some he, List.find?_cons, hnot]

theorem found_cons_of_eq {row : Row} {p : List Char} (hp : p ≠ [])
    (h : row.head? = some p) (rows : List Row) : found (row :: rows) p = entry? row := by
  cases row with
  | nil => simp at h
  | cons f row =>
    obtain rfl : f = p := by simpa using h
    unfold found
    cases he : entry? (f :: row) with
    | none => simp [ entry?, hp] at he
    | some e =>
      obtain ⟨-, hpath, -⟩ := entry?_eq_some.1 he
      rw [List.filterMap_cons_some he, List.find?_cons, hpath]
      simp

theorem found_append_of_ne {rows more : List Row} {p : List Char}
    (h : ∀ row ∈ rows, row.head? ≠ some p) : found (rows ++ more) p = found more p := by
  induction rows with
  | nil => rfl
  | cons row rows ih =>
    rw [List.cons_append, found_cons_of_ne (h row (by simp)), ih fun r hr => h r (by simp [hr])]

theorem found_eq_none {rows : List Row} {p : List Char} (h : ∀ row ∈ rows, row.head? ≠ some p) :
    found rows p = none := by
  rw [← List.append_nil rows, found_append_of_ne h]
  rfl

/-! ## Rows that agree -/

theorem lineFeed_not_mem_digest (content : Bytes) :
    '\n' ∉ (Digest.ofContent content .standard).toList := by
  intro h
  exact absurd (isPlain_of_mem_digest h) (by decide)

theorem entry?_of_rowsAgree {p : List Char} (hline : '\n' ∉ p) {row row' : Row}
    (h : RowsAgree p row row') (hhead : row'.head? = some p) {path : String} {content : Bytes}
    (he : entry? row' = some (freshEntry path content)) :
    entry? row = some (freshEntry path content) := by
  cases h with
  | same => exact he
  | @spoilt front rest rest' f f' hf hf' =>
    match front with
    | [] =>
      obtain rfl : f' = p := by simpa using hhead
      exact absurd hf' (by simp [Csv.Spoils, hline])
    | [a] =>
      -- The first difference is in the digest, which holds a line end.
      have hmem : '\n' ∈ f' := by simpa [Csv.Spoils] using hf'
      have hdigest : String.ofList f' = Digest.ofContent content .standard := by
        obtain ⟨-, -, hd, -⟩ := entry?_eq_some.1 he
        have hne : f' ≠ [] := List.ne_nil_of_mem hmem
        simpa [freshEntry, hne] using hd.symm
      rw [← String.toList_ofList (l := f'), hdigest] at hmem
      exact absurd hmem (lineFeed_not_mem_digest content)
    | [a, b] =>
      -- The first difference is in the size, which holds a line end.
      have hmem : '\n' ∈ f' := by simpa [Csv.Spoils] using hf'
      have hsize : size? f' = some content.length := by
        obtain ⟨-, -, -, hs⟩ := entry?_eq_some.1 he
        simpa [freshEntry] using hs.symm
      rcases mem_of_size? hsize hmem with h | h
      · exact absurd h (by decide)
      · exact absurd h (by decide)
    | a :: b :: d :: front =>
      rw [← he]
      rfl

theorem exists_head_of_agree {p : List Char} (hline : '\n' ∉ p) {rows rows' : List Row}
    (h : List.Forall₂ (RowsAgree p) rows rows') :
    (∃ row ∈ rows, row.head? = some p) ↔ ∃ row ∈ rows', row.head? = some p := by
  induction h with
  | nil => exact Iff.rfl
  | cons hrow _ ih => simp only [List.mem_cons, exists_eq_or_imp, hrow.head_eq_iff hline, ih]

theorem found_of_agree {p : List Char} (hp : p ≠ []) (hline : '\n' ∉ p) {rows rows' : List Row}
    (h : List.Forall₂ (RowsAgree p) rows rows') {more : List Row} {path : String} {content : Bytes}
    (hfound : found (rows' ++ more) p = some (freshEntry path content))
    (hhead : ∃ row ∈ rows, row.head? = some p) : found rows p = some (freshEntry path content) := by
  induction h with
  | nil => simp at hhead
  | @cons row row' rows rows' hrow hrows ih =>
    rw [List.cons_append] at hfound
    by_cases heq : row'.head? = some p
    · rw [found_cons_of_eq hp heq] at hfound
      rw [found_cons_of_eq hp ((hrow.head_eq_iff hline).2 heq)]
      exact entry?_of_rowsAgree hline hrow heq hfound
    · have hne : row.head? ≠ some p := fun h => heq ((hrow.head_eq_iff hline).1 h)
      rw [found_cons_of_ne heq] at hfound
      rw [found_cons_of_ne hne]
      refine ih hfound ?_
      obtain ⟨r, hr, hrp⟩ := hhead
      rcases List.mem_cons.1 hr with rfl | hr
      · exact absurd hrp hne
      · exact ⟨r, hr, hrp⟩

/-! ## The rows of the fork's record -/

variable (replaced) in
theorem exists_toList_forFork (hc : c.NamesValid) {text : String} {before : List (List Char)}
    {line : List Char} {after : List (List Char)}
    (h : Chars.split '\n' text.toList = before ++ line :: after) :
    ∃ rest, (after = [] → rest = []) ∧ (rest = [] ∨ ∃ s, rest = '\n' :: s) ∧
      (forFork text replaced c).toList =
        textBefore c replaced before ++ (outLine c replaced line ++ rest) := by
  have hjoin : ∀ (before : List (List Char)),
      Chars.join '\n' ((before ++ line :: after).map (outLine c replaced)) =
      textBefore c replaced before ++
          Chars.join '\n' ((line :: after).map (outLine c replaced)) := by
    intro before
    induction before with
    | nil => rfl
    | cons l before ih =>
      rw [List.cons_append, List.map_cons, Chars.join_cons _ _ (by simp), ih]
      simp [textBefore]
  have htext := toList_forFork_eq_join hc text replaced
  rw [h] at htext
  rw [htext]
  by_cases hafter : after = []
  · refine ⟨[], fun _ => rfl, Or.inl rfl, ?_⟩
    rw [List.append_nil]
    refine (hjoin before).trans ?_
    rw [hafter, List.map_singleton, Chars.join_singleton]
  · refine ⟨'\n' :: Chars.join '\n' (after.map (outLine c replaced)), fun h => absurd h hafter,
      Or.inr ⟨_, rfl⟩, ?_⟩
    refine (hjoin before).trans ?_
    rw [List.map_cons, Chars.join_cons _ _ (by simpa using hafter)]

variable (replaced) in
/-- The rows of a text are those before a line and what the reader makes of the rest. -/
theorem rows_forFork (hc : c.NamesValid) {text : String} {before : List (List Char)}
    {line : List Char} {after : List (List Char)}
    (h : Chars.split '\n' text.toList = before ++ line :: after) :
    ∃ rest, (after = [] → rest = []) ∧ (rest = [] ∨ ∃ s, rest = '\n' :: s) ∧
      Csv.rows (forFork text replaced c).toList =
        (lineReader c replaced before).rows
        (afterLines before (outLine c replaced line ++ rest)) := by
  obtain ⟨rest, hlast, hrest, htext⟩ := exists_toList_forFork replaced hc h
  refine ⟨rest, hlast, hrest, ?_⟩
  rw [Csv.rows_eq, htext, dropByteOrderMark_append, Reader.rows_append]
  rfl

theorem readerAt_eq (before : List (List Char)) : readerAt c replaced path before =
    ((lineReader c replaced before).run (afterLines before (renamed c path.toList))).next ',' := by
  unfold readerAt
  rw [run_dropByteOrderMark, afterLines_append_comma, Reader.run_append]
  rfl

variable (replaced) in
theorem rows_forFork_own (hc : c.NamesValid) {text : String} {before : List (List Char)}
    {line : List Char} {after : List (List Char)}
    (h : Chars.split '\n' text.toList = before ++ line :: after) {content : Bytes}
    (hline : outLine c replaced line = renamed c path.toList ++ ',' :: freshTail content) :
    ∃ rest, (rest = [] ∨ ∃ s, rest = '\n' :: s) ∧ Csv.rows (forFork text replaced c).toList =
      (readerAt c replaced path before).rows (freshTail content ++ rest) := by
  obtain ⟨rest, -, hrest, hrows⟩ := rows_forFork replaced hc h
  refine ⟨rest, hrest, ?_⟩
  rw [hrows, hline, List.append_assoc, List.cons_append,
    afterLines_append_comma, Reader.rows_append, Reader.rows_cons, ← readerAt_eq]

theorem rows_of_meets {r : Reader} {p : List Char} (hmeet : Meets p (r.next ',')) {rest : List Char}
    (hrest : rest = [] ∨ ∃ s, rest = '\n' :: s) (content : Bytes) :
    ∃ more, (r.next ',').rows (freshTail content ++ rest) = (r.next ',').done ++
      freshRow p content :: more := by
  have hst := hmeet.state
  obtain ⟨hrow, hfield⟩ := hmeet
  have hrun := Csv.run_tail hst (Digest.ofContent_ne_empty content .standard)
    (toString_ne_nil content.length) (fun _ hx => isOrdinary_of_isPlain (isPlain_of_mem_digest hx))
    (fun _ hx => isOrdinary_of_isPlain (isPlain_of_mem_size hx))
  rw [Reader.rows_append]
  unfold freshTail
  rw [hrun, hrow, hfield]
  rcases hrest with rfl | ⟨s, rfl⟩
  · refine ⟨[], ?_⟩
    unfold Reader.rows freshRow
    simp [Csv.read]
  · refine ⟨Csv.read .rowStart [] [] s, ?_⟩
    rw [Reader.rows_cons, Csv.next_lineFeed rfl]
    unfold Reader.rows freshRow
    simp

/-! ## The condition is exact -/

theorem comma_not_mem_renamed (hc : c.NamesValid) {line : List Char} (h : IsLineOf path line) :
    ',' ∉ renamed c path.toList := by
  intro hmem
  have hin := mem_of_mem_renamed hc (by decide) hmem
  rw [← h.2] at hin
  exact comma_not_mem_pathOf line hin

theorem lineFeed_not_mem_renamed (hc : c.NamesValid) {text : String} {line : List Char}
    (hline : line ∈ Chars.split '\n' text.toList) (h : IsLineOf path line) :
    '\n' ∉ renamed c path.toList := by
  intro hmem
  have hin := mem_of_mem_renamed hc (by decide) hmem
  rw [← h.2] at hin
  exact Chars.not_mem_of_mem_split hline (mem_of_mem_pathOf hin)

theorem agree_readerAt (hcomma : ',' ∉ renamed c path.toList) {before : List (List Char)}
    {replaced' : List (String × Bytes)}
    (h : Agree (renamed c path.toList) (lineReader c replaced before)
      (lineReader c replaced' before)) :
    Agree (renamed c path.toList) (readerAt c replaced path before)
    (readerAt c replaced' path before) := by
  rw [readerAt_eq, readerAt_eq]
  exact (h.run hcomma _).next hcomma ','

/-- A row of the path stands before every line after the one where the path is met. -/
theorem head_mem_done_of_meets (hc : c.NamesValid) (henc : c.digestEncoding = .standard)
    (hmem : path ∈ replaced.map Prod.fst) {before : List (List Char)} {line : List Char}
    (hline : IsLineOf path line)
    (hmeet : Meets (renamed c path.toList) (readerAt c replaced path before))
    (after : List (List Char)) : ∃ row ∈ (readerAt c replaced path (before ++ line :: after)).done,
      row.head? = some (renamed c path.toList) := by
  obtain ⟨content, hout⟩ := exists_outLine_eq hc henc hmem hline
  have hreader : lineReader c replaced (before ++ [line]) =
      ((readerAt c replaced path before).run (freshTail content)).next '\n' := by
    rw [lineReader_concat, hout, afterLines_append_comma, Reader.run_append,
      Reader.run_cons, ← readerAt_eq]
  have hdone : freshRow (renamed c path.toList) content ∈
      (lineReader c replaced (before ++ [line])).done := by
    have hst : (readerAt c replaced path before).state = .fieldStart := by
      rw [readerAt_eq] at hmeet ⊢
      exact hmeet.state
    have hrun := Csv.run_tail hst (Digest.ofContent_ne_empty content .standard)
      (toString_ne_nil content.length)
      (fun _ hx => isOrdinary_of_isPlain (isPlain_of_mem_digest hx))
      (fun _ hx => isOrdinary_of_isPlain (isPlain_of_mem_size hx))
    rw [hreader]
    unfold freshTail
    rw [hrun, hmeet.1, hmeet.2, Csv.next_lineFeed rfl]
    simp [freshRow]
  have hsplit : lineReader c replaced (before ++ line :: after) =
      (lineReader c replaced (before ++ [line])).run
        (afterLines (before ++ [line]) (textBefore c replaced after)) := by
    rw [← run_dropByteOrderMark]
    unfold lineReader textBefore
    simp
  refine ⟨freshRow (renamed c path.toList) content, ?_, rfl⟩
  rw [readerAt_eq, ← Reader.run_nil (Reader.next _ _), ← Reader.run_cons,
    ← Reader.run_append, hsplit, ← Reader.run_append]
  exact (Reader.done_prefix_run _ _).subset hdone

/-- Two contents of different sizes do not have the same entry. -/
theorem not_fresh_of_both {e : Option RecordEntry} {q : String} {x y : Bytes}
    (hlen : x.length ≠ y.length) (hx : e = some (freshEntry q x)) (hy : e = some (freshEntry q y)) :
    False := by
  have heq := Option.some.inj (hx.symm.trans hy)
  exact hlen (by simpa [freshEntry] using congrArg RecordEntry.size heq)

/-- The file has a fresh entry in the fork's record, whatever its new content. -/
def AlwaysFresh (c : Config) (replaced : List (String × Bytes)) (text path : String) : Prop :=
  ∀ content : Bytes, content.length < 0x10000000000000000 →
    (parse (forFork text (withContent replaced path content) c)).find? (renameAll c path) =
      some (freshEntry (renameAll c path) content)

theorem AlwaysFresh.found {text : String} (h : AlwaysFresh c replaced text path) {content : Bytes}
    (hlen : content.length < 0x10000000000000000) :
    found (Csv.rows (forFork text (withContent replaced path content) c).toList)
    (renamed c path.toList) =
      some (freshEntry (renameAll c path) content) := by
  have hfind := h content hlen
  rwa [find?_parse, toList_renameAll] at hfind

section

variable (hc : c.NamesValid) (henc : c.digestEncoding = .standard) (hpath : path ≠ "")
  (hmem : path ∈ replaced.map Prod.fst)
include hc henc hpath hmem

/-- If the file is always fresh, rows of its path stand before none of its lines up to which readers
agree. -/
theorem AlwaysFresh.head_ne {text : String} (hfresh : AlwaysFresh c replaced text path)
    {before : List (List Char)} {line : List Char} {after : List (List Char)}
    (h : Chars.split '\n' text.toList = before ++ line :: after) (hline : IsLineOf path line)
    (hagree : ∀ content, Agree (renamed c path.toList) (lineReader c replaced before)
      (lineReader c (withContent replaced path content) before)) :
    ∀ row ∈ (readerAt c replaced path before).done, row.head? ≠ some (renamed c path.toList) := by
  intro row hrow hhead
  have hne : renamed c path.toList ≠ [] :=
    renamed_ne_nil c fun h => hpath (String.toList_eq_nil_iff.1 h)
  have hcomma := comma_not_mem_renamed hc hline
  have hlf := lineFeed_not_mem_renamed hc (by rw [h]; simp) hline
  have hfound : ∀ content : Bytes, content.length < 0x10000000000000000 →
      Record.found (readerAt c replaced path before).done (renamed c path.toList) =
        some (freshEntry (renameAll c path) content) := by
    intro content hlen
    obtain ⟨rest, -, hrows⟩ := rows_forFork_own (withContent replaced path content) hc h
      (outLine_withContent_own hc henc hmem hline content)
    have hx := hfresh.found hlen
    rw [hrows] at hx
    exact found_of_agree hne hlf (agree_readerAt hcomma (hagree content)).done hx ⟨row, hrow, hhead⟩
  exact not_fresh_of_both (x := []) (y := [0]) (by simp) (hfound [] (by simp))
    (hfound [0] (by simp))

/-- If the file is always fresh and its path is not read first on a line of its own, then it is met
on none. -/
theorem AlwaysFresh.not_meets {text : String} (hfresh : AlwaysFresh c replaced text path)
    (hnot : ¬ ReadFirst c replaced text path) {before : List (List Char)} {line : List Char}
    {after : List (List Char)} (h : Chars.split '\n' text.toList = before ++ line :: after)
    (hline : IsLineOf path line) :
    ¬ Meets (renamed c path.toList) (readerAt c replaced path before) := by
  induction hn : before.length using Nat.strongRecOn generalizing before line after with
  | ind n ih =>
    intro hmeet
    have hcomma := comma_not_mem_renamed hc hline
    have hagree : ∀ content, Agree (renamed c path.toList) (lineReader c replaced before)
        (lineReader c (withContent replaced path content) before) := by
      intro content
      refine (agree_lines hc henc hmem hcomma content before fun b l a hb hl => ?_).1
      have hlater : Chars.split '\n' text.toList = b ++ l :: (a ++ line :: after) := by
        rw [h, hb, List.append_assoc, List.cons_append]
      refine ih b.length ?_ hlater hl rfl
      rw [← hn, hb, List.length_append, List.length_cons]
      omega
    exact hnot ⟨before, line, after, h, hline, hmeet,
      hfresh.head_ne hc henc hpath hmem h hline hagree⟩

theorem AlwaysFresh.readFirst {text : String} (hfresh : AlwaysFresh c replaced text path) :
    ReadFirst c replaced text path := by
  refine Classical.byContradiction fun hnot => ?_
  have hne : renamed c path.toList ≠ [] :=
    renamed_ne_nil c fun h => hpath (String.toList_eq_nil_iff.1 h)
  by_cases hex : ∃ line ∈ Chars.split '\n' text.toList, IsLineOf path line
  · obtain ⟨own, hown, howner⟩ := hex
    have hcomma := comma_not_mem_renamed hc howner
    have hlf := lineFeed_not_mem_renamed hc hown howner
    -- No reader meets the path on its lines, so the readers of all versions agree up to the end.
    obtain ⟨before, last, hsplit⟩ : ∃ before last,
        Chars.split '\n' text.toList = before ++ [last] :=
      ⟨_, _, (List.dropLast_append_getLast (Chars.split_ne_nil '\n' text.toList)).symm⟩
    have hno : ∀ b l a, before ++ [last] = b ++ l :: a → IsLineOf path l →
        ¬ Meets (renamed c path.toList) (readerAt c replaced path b) := by
      intro b l a hb hl
      exact hfresh.not_meets hc henc hpath hmem hnot (hsplit.trans hb) hl
    obtain ⟨rest, hrest, -, hrows⟩ := rows_forFork replaced hc hsplit
    rw [hrest rfl, List.append_nil] at hrows
    have hfound : ∀ content : Bytes, content.length < 0x10000000000000000 →
        Record.found (Csv.rows (forFork text replaced c).toList) (renamed c path.toList) =
          some (freshEntry (renameAll c path) content) := by
      intro content hlen
      obtain ⟨hbefore, hstart⟩ := agree_lines hc henc hmem hcomma content before fun b l a hb hl =>
        hno b l (a ++ [last]) (by rw [hb, List.append_assoc, List.cons_append]) hl
      have hagree :=
        (agree_line hc henc hmem hcomma content hbefore hstart (hno before last [] rfl)).rows hcomma
      obtain ⟨rest', hrest', -, hrows'⟩ :=
        rows_forFork (withContent replaced path content) hc hsplit
      rw [hrest' rfl, List.append_nil] at hrows'
      have hx := hfresh.found hlen
      rw [← List.append_nil (Csv.rows _), hrows', ← List.append_nil (afterLines _ _),
        Reader.rows_append] at hx
      rw [hrows, ← List.append_nil (afterLines _ _), Reader.rows_append]
      refine found_of_agree hne hlf hagree hx ((exists_head_of_agree hlf hagree).2 ?_)
      refine Classical.byContradiction fun hnone => ?_
      rw [List.append_nil, found_eq_none fun row hrow hhead => hnone ⟨row, hrow, hhead⟩] at hx
      exact absurd hx (by simp)
    exact not_fresh_of_both (x := []) (y := [0]) (by simp) (hfound [] (by simp))
      (hfound [0] (by simp))
  · -- No line is one of the path, so the content does not matter.
    have hsame : ∀ content, forFork text (withContent replaced path content) c =
        forFork text replaced c := by
      intro content
      refine String.toList_inj.1 ?_
      rw [toList_forFork_eq_join hc, toList_forFork_eq_join hc]
      refine congrArg (Chars.join '\n') (List.map_congr_left fun line hline => ?_)
      exact outLine_withContent (fun h => hex ⟨line, hline, h⟩) content
    have h0 := hfresh [] (by simp)
    have h1 := hfresh [0] (by simp)
    rw [hsame] at h0 h1
    exact not_fresh_of_both (x := []) (y := [0]) (by simp) h0 h1

theorem ReadFirst.alwaysFresh {text : String} (h : ReadFirst c replaced text path) :
    AlwaysFresh c replaced text path := by
  obtain ⟨before, line, after, hsplit, hline, hmeet, hdone⟩ := h
  intro content hlen
  have hne : renamed c path.toList ≠ [] :=
    renamed_ne_nil c fun h => hpath (String.toList_eq_nil_iff.1 h)
  have hcomma := comma_not_mem_renamed hc hline
  have hlf := lineFeed_not_mem_renamed hc (by rw [hsplit]; simp) hline
  have hbefore := (agree_lines hc henc hmem hcomma content before fun b l a hb hl hm => by
    obtain ⟨row, hrow, hhead⟩ := head_mem_done_of_meets hc henc hmem hl hm a
    rw [← hb] at hrow
    exact hdone row hrow hhead).1
  have hagree := agree_readerAt hcomma hbefore
  have hmeet' := hagree.meets hlf hmeet
  have hdone' : ∀ row ∈ (readerAt c (withContent replaced path content) path before).done,
      row.head? ≠ some (renamed c path.toList) := by
    intro row hrow hhead
    obtain ⟨r, hr, hrp⟩ := (exists_head_of_agree hlf hagree.done).2 ⟨row, hrow, hhead⟩
    exact hdone r hr hrp
  obtain ⟨rest, hrest, hrows⟩ := rows_forFork_own (withContent replaced path content) hc hsplit
    (outLine_withContent_own hc henc hmem hline content)
  rw [find?_parse, toList_renameAll, hrows]
  rw [readerAt_eq] at hmeet' hdone' ⊢
  obtain ⟨more, hmore⟩ := rows_of_meets hmeet' hrest content
  rw [hmore, found_append_of_ne hdone', found_cons_of_eq hne rfl, entry?_freshRow hne hlen,
    renameAll_eq]

end

/-- **Exactly when a record stays right.** Whatever its new content, a replaced file has the digest
and the size of that content in the fork's record if and only if a reader of the fork's record first
meets the path at the start of a line `path,…` of the record. -/
theorem alwaysFresh_iff (hc : c.NamesValid) (henc : c.digestEncoding = .standard)
    (hpath : path ≠ "") (hmem : path ∈ replaced.map Prod.fst) (text : String) :
    AlwaysFresh c replaced text path ↔ ReadFirst c replaced text path :=
  ⟨fun h => h.readFirst hc henc hpath hmem, fun h => h.alwaysFresh hc henc hpath hmem⟩

/-- A record with one plain line has a fresh entry. -/
theorem alwaysFresh_plain_line :
    AlwaysFresh {} [("pythonmonkey/require.py", [])] "pythonmonkey/require.py,sha256=old,5\n"
      "pythonmonkey/require.py" :=
  (alwaysFresh_iff Config.namesValid_default rfl (by decide) (by decide) _).2
    ⟨[], "pythonmonkey/require.py,sha256=old,5".toList, [[]], by decide, ⟨by decide, by decide⟩,
      ⟨by decide, by decide⟩, by decide⟩

/-- A quoted path keeps the stale entry, although a reader finds the path in the record. -/
theorem stale_quoted_path :
    Config.NamesValid {} ∧ ({} : Config).digestEncoding = .standard ∧
      ((parse "\"pythonmonkey/require.py\",sha256=old,5\n").entries.map (·.path)) =
        ["pythonmonkey/require.py"] ∧
      (parse (forFork "\"pythonmonkey/require.py\",sha256=old,5\n"
          [("pythonmonkey/require.py", [1, 2, 3])] {})).find?
          (renameAll {} "pythonmonkey/require.py") =
        some ⟨"pythonmonkey/require.py", some "sha256=old", some 5⟩ ∧
      ⟨"pythonmonkey/require.py", some "sha256=old", some 5⟩ ≠
          freshEntry "pythonmonkey/require.py" [1, 2, 3] := by
  refine ⟨Config.namesValid_default, rfl, by decide, by decide, ?_⟩
  intro h
  exact absurd (congrArg RecordEntry.size h) (by decide)

end Rebadge.Record
