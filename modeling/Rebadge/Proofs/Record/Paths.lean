import Rebadge.Proofs.Record.Lines

/-!
# The paths of a plain record

A record without quotes, carriage returns and a byte-order mark has the entries of its lines
(`entries_parse`), and so lists what stands before the first comma of each (`paths_parse`). The
fork's record is plain again, and its paths are the renamed ones, in the same order
(`paths_forFork`).
-/

namespace Rebadge.Record

variable {c : Config} {replaced : List (String × Bytes)} {text : String}

/-- The paths that a record lists, in order. -/
def paths (r : Record) : List String := r.entries.map (·.path)

/-- A text in which rows are lines. -/
structure PlainText (text : List Char) : Prop where
  quote : '"' ∉ text
  carriageReturn : '\r' ∉ text
  /-- The text does not start with a byte-order mark. -/
  byteOrderMark : text.head? ≠ some '\uFEFF'

theorem PlainText.rows (h : PlainText text.toList) :
    Csv.rows text.toList = (Chars.split '\n' text.toList).flatMap Csv.lineRows := by
  have hmark : Csv.dropByteOrderMark text.toList = text.toList := by
    unfold Csv.dropByteOrderMark
    split
    · next x s heq =>
      rw [heq]
      refine if_neg fun hx => h.byteOrderMark ?_
      rw [heq, hx]
      rfl
    · next heq => rw [heq]
  have hread := Csv.read_join (Chars.split '\n' text.toList) fun line hline =>
    Csv.stateAfter_ne_quoted (fun hquote => h.quote (Chars.mem_of_mem_split hline hquote)) (by simp)
  unfold Csv.rows
  rw [hmark, ← hread, Chars.join_split]

theorem path_of_row (row : Csv.Row) : ( entry? row).map (·.path) =
    if row.headD [] = [] then none else some (.ofList (row.headD [])) := by
  unfold entry?
  by_cases h : row.headD [] = []
  · rw [if_pos h, if_pos h]
    rfl
  · rw [if_neg h, if_neg h]
    rfl

/-- **The entries** of a plain record are those of its lines. -/
theorem entries_parse (h : PlainText text.toList) : (parse text).entries =
    (Chars.split '\n' text.toList).filterMap fun line => entry? (Chars.split ',' line) := by
  have hlines : ∀ lines : List (List Char),
      (∀ line ∈ lines, '"' ∉ line ∧ ∀ x ∈ line, Csv.isLineEnd x = false) →
      (lines.flatMap Csv.lineRows).filterMap entry? = lines.filterMap fun line =>
          entry? (Chars.split ',' line) := by
    intro lines
    induction lines with
    | nil => exact fun _ => rfl
    | cons line lines ih =>
      intro hall
      obtain ⟨⟨hquote, hend⟩, htail⟩ := List.forall_mem_cons.1 hall
      rw [List.flatMap_cons, List.filterMap_append, ih htail, Csv.lineRows_plain hquote hend,
        List.filterMap_cons]
      by_cases hnil : line = []
      · rw [hnil]
        rfl
      · rw [if_neg hnil, List.filterMap_cons]
        cases entry? (Chars.split ',' line) <;> rfl
  unfold parse
  rw [h.rows]
  refine hlines _ fun line hline =>
    ⟨fun hquote => h.quote (Chars.mem_of_mem_split hline hquote), fun x hx => ?_⟩
  have hfeed : x ≠ '\n' := by
    rintro rfl
    exact Chars.not_mem_of_mem_split hline hx
  have hreturn : x ≠ '\r' := by
    rintro rfl
    exact h.carriageReturn (Chars.mem_of_mem_split hline hx)
  simp [Csv.isLineEnd, hfeed, hreturn]

/-- **The listed paths** of a plain record. -/
theorem paths_parse (h : PlainText text.toList) : (parse text).paths =
    (((Chars.split '\n' text.toList).map pathOf).filter (· ≠ [])).map String.ofList := by
  unfold paths
  rw [entries_parse h, List.map_filterMap, List.filter_map, List.map_map, ← List.filterMap_eq_map,
    List.filterMap_filter]
  refine List.filterMap_congr fun line _ => ?_
  rw [path_of_row, head_split_comma]
  by_cases hpath : pathOf line = [] <;> simp [hpath]

/-! ## The lines of the fork -/

/-- The characters of digests in either alphabet. -/
def isDigestChar (x : Char) : Bool := isPlain x || x == '-' || x == '_'

theorem isDigestChar_of_mem {content : Bytes} {encoding : DigestEncoding} {x : Char}
    (h : x ∈ (Digest.ofContent content encoding).toList) : isDigestChar x = true := by
  cases encoding with
  | standard => simp [isDigestChar, isPlain_of_mem_digest h]
  | urlSafeNoPad =>
    have hdigit : ∀ d : Fin 64, isDigestChar (Base64.Alphabet.urlSafe.char d) = true := by decide
    unfold Digest.ofContent at h
    rw [String.toList_append, String.toList_ofList, List.mem_append] at h
    rcases h with h | h
    · have htag : Digest.tag.toList.all isDigestChar = true := rfl
      exact List.all_eq_true.1 htag x h
    · obtain ⟨d, hd, rfl⟩ := List.mem_map.1 h
      exact hdigit ⟨d, Base64.digits_lt _ d hd⟩

theorem forkLine_cases (encoding : DigestEncoding) (replaced : List (String × Bytes))
    (line : List Char) :
    forkLine encoding replaced line = line ∨ ',' ∈ line ∧
    ∃ path content, path.toList = pathOf line ∧
      forkLine encoding replaced line = (freshLine encoding path content).toList := by
  unfold forkLine
  cases hfind : replaced.find? fun r => r.1.toList == pathOf line with
  | none => exact Or.inl rfl
  | some r =>
    obtain ⟨path, content⟩ := r
    have hpath : path.toList = pathOf line := by simpa using List.find?_some hfind
    by_cases hcomma : line.contains ',' = true
    · exact Or.inr ⟨by simpa using hcomma, path, content, hpath, if_pos hcomma⟩
    · exact Or.inl (if_neg hcomma)

theorem pathOf_forkLine (encoding : DigestEncoding) (replaced : List (String × Bytes))
    (line : List Char) : pathOf (forkLine encoding replaced line) = pathOf line := by
  rcases forkLine_cases encoding replaced line with h | ⟨-, path, content, hpath, h⟩
  · rw [h]
  · have hcomma : ',' ∉ path.toList := by
      rw [hpath]
      exact comma_not_mem_pathOf line
    have hlist : (freshLine encoding path content).toList = path.toList ++ ',' ::
        ((Digest.ofContent content encoding).toList ++ ',' ::
          (toString content.length).toList) := by
      simp [freshLine]
    rw [h, hlist, pathOf_append hcomma, hpath]

theorem mem_of_mem_forkLine {encoding : DigestEncoding} {line : List Char} {x : Char}
    (hx : isDigestChar x = false) (hcomma : x ≠ ',') (h : x ∈ forkLine encoding replaced line) :
    x ∈ line := by
  rcases forkLine_cases encoding replaced line with heq | ⟨-, path, content, hpath, heq⟩
  · rwa [heq] at h
  · rw [heq] at h
    simp only [freshLine, String.toList_append, List.mem_append] at h
    have hsep : x ∉ ",".toList := by simpa using hcomma
    rcases h with (((h | h) | h) | h) | h
    · rw [hpath] at h
      exact mem_of_mem_pathOf h
    · exact absurd h hsep
    · rw [isDigestChar_of_mem h] at hx
      exact absurd hx (by simp)
    · exact absurd h hsep
    · rw [isDigestChar, isPlain_of_mem_size h] at hx
      exact absurd hx (by simp)

theorem pathOf_renamed (hc : c.NamesValid) (line : List Char) :
    pathOf (renamed c line) = renamed c (pathOf line) := by
  have hnot : ',' ∉ renamed c (pathOf line) := fun hmem =>
    comma_not_mem_pathOf line (mem_of_mem_renamed hc (by decide) hmem)
  by_cases h : ',' ∈ line
  · obtain ⟨rest, hrest⟩ := exists_eq_pathOf_append h
    have happend := renamed_append hc (s := ',') (by decide) (pathOf line) rest
    rw [← hrest] at happend
    rw [happend, pathOf_append hnot]
  · rw [pathOf_eq_self h] at hnot ⊢
    exact pathOf_eq_self hnot

/-! ## The record of the fork -/

theorem head?_of_renamed (hc : c.NamesValid) {x : Char} (hx : isBoundary x = true) {s : List Char}
    (h : (renamed c s).head? = some x) : s.head? = some x := by
  cases s with
  | nil => rwa [renamed_nil] at h
  | cons y s =>
    have hsplit := split_renamed hc hx (y :: s)
    obtain ⟨rest, hrest⟩ : ∃ rest, renamed c (y :: s) = x :: rest := by
      cases hr : renamed c (y :: s) with
      | nil => simp [hr] at h
      | cons z rest => exact ⟨rest, by rw [hr, List.head?_cons, Option.some.injEq] at h; rw [h]⟩
    -- A separator at the front leaves an empty first piece.
    have hfirst : (Chars.split x (y :: s)).head? = some [] := by
      rw [hrest, Chars.split, if_pos rfl] at hsplit
      cases hpieces : Chars.split x (y :: s) with
      | nil => exact absurd hpieces (Chars.split_ne_nil _ _)
      | cons p ps =>
        rw [hpieces, List.map_cons] at hsplit
        have hp : renamed c p = [] := (List.cons.inj hsplit).1.symm
        rw [Decidable.not_not.1 (mt (renamed_ne_nil c) (not_not_intro hp)), List.head?_cons]
    rw [Chars.head?_split, Option.some.injEq] at hfirst
    by_cases hy : y = x
    · rw [hy, List.head?_cons]
    · rw [List.takeWhile_cons_of_pos (by simpa using hy)] at hfirst
      exact absurd hfirst (by simp)

theorem head?_pathOf {x : Char} (hx : x ≠ ',') {line : List Char} :
    (pathOf line).head? = some x ↔ line.head? = some x := by
  unfold pathOf
  rw [List.head?_takeWhile, Option.filter_eq_some_iff]
  exact and_iff_left_of_imp fun _ => by simpa using hx

/-- **The fork's record** is plain too. -/
theorem PlainText.forFork (hc : c.NamesValid) (h : PlainText text.toList)
    (replaced : List (String × Bytes)) : PlainText (forFork text replaced c).toList := by
  have hlines : ∀ {x}, x ∈ (Record.forFork text replaced c).toList → isBoundary x = true →
      isDigestChar x = false →
      x ≠ ',' → x ≠ '\n' → x ∈ text.toList := by
    intro x hx hbound hdigest hcomma hfeed
    rw [toList_forFork] at hx
    obtain ⟨p, hp, hxp⟩ := (Chars.mem_join (mem_of_mem_renamed hc hbound hx)).resolve_left hfeed
    obtain ⟨line, hline, rfl⟩ := List.mem_map.1 hp
    exact Chars.mem_of_mem_split hline (mem_of_mem_forkLine hdigest hcomma hxp)
  refine ⟨fun hmem => ?_, fun hmem => ?_, fun hhead => h.byteOrderMark ?_⟩
  · exact h.quote (hlines hmem (by decide) (by decide) (by decide) (by decide))
  · exact h.carriageReturn (hlines hmem (by decide) (by decide) (by decide) (by decide))
  · rw [toList_forFork] at hhead
    have hfirst := head?_of_renamed hc (by decide +kernel) hhead
    have hline := Chars.head?_split '\n' text.toList
    cases hlines : Chars.split '\n' text.toList with
    | nil => exact absurd hlines (Chars.split_ne_nil _ _)
    | cons line lines =>
      rw [hlines, List.head?_cons, Option.some.injEq] at hline
      rw [hlines, List.map_cons] at hfirst
      have hfork := Chars.head?_of_join (by decide) hfirst
      rw [← head?_pathOf (by decide), pathOf_forkLine, head?_pathOf (by decide), hline,
        List.head?_takeWhile] at hfork
      exact Option.eq_some_of_filter_eq_some hfork

theorem lines_forFork (hc : c.NamesValid) (text : String) (replaced : List (String × Bytes)) :
    Chars.split '\n' (forFork text replaced c).toList =
      (Chars.split '\n' text.toList).map fun line =>
        renamed c (forkLine c.digestEncoding replaced line) := by
  rw [toList_forFork_eq_join hc]
  refine Chars.split_join (by simp [Chars.split_ne_nil]) fun p hp hmem => ?_
  obtain ⟨line, hline, rfl⟩ := List.mem_map.1 hp
  exact Chars.not_mem_of_mem_split hline
    (mem_of_mem_forkLine (by decide) (by decide) (mem_of_mem_renamed hc (by decide) hmem))

/-- **The paths of the fork's record.** -/
theorem paths_forFork (hc : c.NamesValid) (h : PlainText text.toList)
    (replaced : List (String × Bytes)) :
    (parse (forFork text replaced c)).paths = (parse text).paths.map (renameAll c) := by
  rw [paths_parse (h.forFork hc replaced), paths_parse h, lines_forFork hc,
    List.map_map, List.map_map]
  have hpath : pathOf ∘ (fun line => renamed c (forkLine c.digestEncoding replaced line)) =
      renamed c ∘ pathOf := by
    funext line
    simp only [Function.comp_apply, pathOf_renamed hc, pathOf_forkLine]
  have hempty : ∀ p : List Char, (decide (renamed c p ≠ []) = decide (p ≠ [])) := by
    intro p
    by_cases hp : p = []
    · simp [hp, renamed_nil]
    · simp [hp, renamed_ne_nil c hp]
  rw [hpath, ← List.map_map, List.filter_map, List.map_map]
  have hfilter : ((fun p => decide (p ≠ [])) ∘ renamed c) = fun p => decide (p ≠ []) :=
    funext hempty
  rw [hfilter]
  refine List.map_congr_left fun p _ => ?_
  simp only [Function.comp_apply, renameAll_eq, String.toList_ofList]

end Rebadge.Record
