import Rebadge.Proofs.Record.Paths

/-!
# The record line by line

A record is cut into lines, the lines of replaced files are made anew, and then the package name
gives way and local versions are cut in the text as a whole. The last two steps see one text: that
they never act across a line end holds for every name without one, and for nothing else about the
names. An occurrence of the name holds no line end, and a version neither holds one nor depends on
what stands behind one. So the whole rewriting is a map over lines (`forFork_lines`), and a line
says all by itself what becomes of it.
-/

namespace Rebadge.Chars

theorem exists_last_line (sep : Char) (s : List Char) :
    ∃ last, sep ∉ last ∧ (s = last ∨ ∃ front, s = front ++ sep :: last) := by
  by_cases h : sep ∈ s.reverse
  · obtain ⟨last, front, hs, hlast⟩ := List.eq_append_cons_of_mem h
    refine ⟨last.reverse, by simpa using hlast, Or.inr ⟨front.reverse, ?_⟩⟩
    have hback := congrArg List.reverse hs
    simpa using hback
  · exact ⟨s, by simpa using h, Or.inl rfl⟩

theorem join_append (sep : Char) {ps qs : List (List Char)} (hps : ps ≠ []) (hqs : qs ≠ []) :
    join sep (ps ++ qs) = join sep ps ++ sep :: join sep qs := by
  induction ps with
  | nil => exact absurd rfl hps
  | cons p ps ih =>
    by_cases hps : ps = []
    · rw [hps, List.singleton_append, join_cons sep p hqs, join_singleton]
    · rw [List.cons_append, join_cons sep p (by simp [hps]), ih hps,
        join_cons sep p hps, List.append_assoc, List.cons_append]

end Rebadge.Chars

namespace Rebadge.Record

variable {c : Config} {replaced : List (String × Bytes)}

/-! ## Line ends -/

/-- Neither name holds a line end. -/
structure LineFree (c : Config) : Prop where
  package : '\n' ∉ c.distName.toList
  fork : '\n' ∉ c.forkDistName.toList

theorem LineFree.packagePrefix (h : LineFree c) : '\n' ∉ packagePrefix c := by
  rw [packagePrefix_eq]
  simpa using h.package

theorem LineFree.forkPrefix (h : LineFree c) : '\n' ∉ forkPrefix c := by
  rw [forkPrefix_eq]
  simpa using h.fork

theorem LineFree.not_mem_renamed (h : LineFree c) {s : List Char} (hs : '\n' ∉ s) :
    '\n' ∉ renamed c s := by
  intro hmem
  rcases Chars.mem_replaceAll (Version.mem_of_mem_stripFrom hmem) with hmem | hmem
  · exact hs hmem
  · exact h.forkPrefix hmem

/-! ## One line -/

/-- What becomes of a line. -/
def forkOf (c : Config) (replaced : List (String × Bytes)) (line : List Char) : List Char :=
  renamed c (forkLine c.digestEncoding replaced line)

theorem LineFree.not_mem_forkOf (h : LineFree c) {line : List Char} (hline : '\n' ∉ line) :
    '\n' ∉ forkOf c replaced line :=
  h.not_mem_renamed fun hmem => hline (mem_of_mem_forkLine (by decide) (by decide) hmem)

theorem forkOf_eq_nil_iff {line : List Char} : forkOf c replaced line = [] ↔ line = [] := by
  unfold forkOf
  rw [renamed_eq_nil_iff]
  rcases forkLine_cases c.digestEncoding replaced line with heq | ⟨hcomma, path, content, -, heq⟩
  · rw [heq]
  · rw [heq]
    exact iff_of_false (by simp [freshLine]) (List.ne_nil_of_mem hcomma)

theorem toList_forFork_line {line : String} (h : '\n' ∉ line.toList) :
    (forFork line replaced c).toList = forkOf c replaced line.toList := by
  rw [toList_forFork, Chars.split_of_not_mem h, List.map_singleton, Chars.join_singleton]
  rfl

theorem forFork_line {line : String} (h : '\n' ∉ line.toList) :
    forFork line replaced c =
      renameAll c (.ofList (forkLine c.digestEncoding replaced line.toList)) := by
  rw [← String.toList_inj, toList_forFork_line h, toList_renameAll, String.toList_ofList]
  rfl

/-- The line of a replaced file is made of the first content that stands with its path. -/
theorem forkLine_of_first {encoding : DigestEncoding} {path rest : String} {content : Bytes}
    {before after : List (String × Bytes)} (hcomma : ',' ∉ path.toList)
    (hfirst : ∀ r ∈ before, r.1 ≠ path) :
    forkLine encoding (before ++ (path, content) :: after) (path ++ "," ++ rest).toList =
      (freshLine encoding path content).toList := by
  have hlist : (path ++ "," ++ rest).toList = path.toList ++ ',' :: rest.toList := by simp
  have hskip : before.find? (fun r => r.1.toList == path.toList) = none := by
    refine List.find?_eq_none.2 fun r hr heq => hfirst r hr ?_
    exact String.toList_inj.1 (beq_iff_eq.1 heq)
  have hfind : (before ++ (path, content) :: after).find? (fun r => r.1.toList == path.toList) =
      some (path, content) := by
    rw [List.find?_append, hskip, Option.none_or]
    exact List.find?_cons_of_pos (beq_self_eq_true _)
  unfold forkLine
  rw [hlist, pathOf_append hcomma, hfind]
  exact if_pos (by simp)

theorem forkLine_of_other {encoding : DigestEncoding} {line : String}
    (hother : ∀ path rest, line = path ++ "," ++ rest → ',' ∉ path.toList →
      path ∉ replaced.map Prod.fst) :
    forkLine encoding replaced line.toList = line.toList := by
  rcases forkLine_cases encoding replaced line.toList with hsame | ⟨hcomma, path, content, hpath, -⟩
  · exact hsame
  · obtain ⟨rest, hrest⟩ := exists_eq_pathOf_append hcomma
    have hnot : ',' ∉ path.toList := hpath ▸ comma_not_mem_pathOf line.toList
    have hline : line = path ++ "," ++ .ofList rest := by
      rw [← String.toList_inj, hrest, ← hpath]
      simp
    unfold forkLine
    have hnone : replaced.find? (fun r => r.1.toList == pathOf line.toList) = none := by
      refine List.find?_eq_none.2 fun r hr heq => hother path _ hline hnot ?_
      rw [← hpath] at heq
      rw [← String.toList_inj.1 (beq_iff_eq.1 heq)]
      exact List.mem_map_of_mem hr
    rw [hnone]

/-! ## The whole record -/

/-- Texts that a line end keeps apart become records by themselves. -/
theorem LineFree.toList_forFork_append (h : LineFree c) (a b : String) :
    (forFork (a ++ "\n" ++ b) replaced c).toList =
      (forFork a replaced c).toList ++ '\n' :: (forFork b replaced c).toList := by
  have hlist : (a ++ "\n" ++ b).toList = a.toList ++ '\n' :: b.toList := by simp
  rw [toList_forFork, hlist, Chars.split_append_sep, List.map_append,
    Chars.join_append '\n' (by simp [Chars.split_ne_nil]) (by simp [Chars.split_ne_nil]),
    renamed_append_sep h.packagePrefix (by decide), ← toList_forFork, ← toList_forFork]

/-- **The rewriting is a map over lines.** -/
theorem LineFree.split_forFork (h : LineFree c) (text : String) :
    Chars.split '\n' (forFork text replaced c).toList = (Chars.split '\n' text.toList).map
    (forkOf c replaced) := by
  have hrenamed : (forFork text replaced c).toList =
      Chars.join '\n' ((Chars.split '\n' text.toList).map (forkOf c replaced)) := by
    rw [toList_forFork, Chars.map_join (renamed_append_sep h.packagePrefix (by decide))
      (by simp [Chars.split_ne_nil]), List.map_map]
    rfl
  rw [hrenamed]
  refine Chars.split_join (by simp [Chars.split_ne_nil]) fun p hp => ?_
  obtain ⟨line, hline, rfl⟩ := List.mem_map.1 hp
  exact h.not_mem_forkOf (Chars.not_mem_of_mem_split hline)

theorem LineFree.getLast?_forFork (h : LineFree c) (text : String) :
    (forFork text replaced c).toList.getLast? = some '\n' ↔ text.toList.getLast? = some '\n' := by
  obtain ⟨last, hlast, hform⟩ := Chars.exists_last_line '\n' text.toList
  have hopen : ∀ {s : List Char}, '\n' ∉ s → s.getLast? ≠ some '\n' :=
    fun hs hend => hs (List.mem_of_getLast? hend)
  have hfork : '\n' ∉ forkOf c replaced last := h.not_mem_forkOf hlast
  rcases hform with htext | ⟨front, htext⟩
  · rw [toList_forFork_line (by rwa [htext]), htext]
    exact iff_of_false (hopen hfork) (hopen hlast)
  · have hcut : text = .ofList front ++ "\n" ++ .ofList last := by
      rw [← String.toList_inj, htext]
      simp
    have hline : (forFork (.ofList last) replaced c).toList = forkOf c replaced last := by
      rw [toList_forFork_line (by rwa [String.toList_ofList]), String.toList_ofList]
    rw [htext, hcut, h.toList_forFork_append, hline]
    -- What counts is whether anything stands behind the last line end.
    by_cases hnil : last = []
    · rw [hnil, forkOf_eq_nil_iff.2 rfl, List.getLast?_append, List.getLast?_append]
      exact iff_of_true rfl rfl
    · have hne : forkOf c replaced last ≠ [] := forkOf_eq_nil_iff.not.2 hnil
      have hbehind : ∀ {a s : List Char}, s ≠ [] → (a ++ '\n' :: s).getLast? = s.getLast? := by
        intro a s hs
        rw [List.getLast?_append, List.getLast?_cons_of_ne_nil hs]
        simp [List.getLast?_eq_some_getLast hs]
      rw [hbehind hne, hbehind hnil]
      exact iff_of_false (hopen hfork) (hopen hlast)

/-- **Line by line.** Records beside a line end are rewritten by themselves. One line is made anew
if what precedes its first comma is the path of a replaced file, the first of that path, and stays
otherwise; then it is renamed. So there are as many lines as before, each made of its own line
alone, and the last one is ended if it was. -/
theorem forFork_lines (hpackage : '\n' ∉ c.distName.toList) (hfork : '\n' ∉ c.forkDistName.toList)
    (replaced : List (String × Bytes)) :
    (∀ a b, forFork (a ++ "\n" ++ b) replaced c = forFork a replaced c ++ "\n" ++
      forFork b replaced c) ∧
    (∀ path rest content before after, '\n' ∉ (path ++ "," ++ rest).toList → ',' ∉ path.toList →
      replaced = before ++ (path, content) :: after → (∀ r ∈ before, r.1 ≠ path) →
      forFork (path ++ "," ++ rest) replaced c = renameAll c
        (path ++ "," ++ Digest.ofContent content c.digestEncoding ++ "," ++
          toString content.length)) ∧
    (∀ line, '\n' ∉ line.toList →
      (∀ path rest, line = path ++ "," ++ rest → ',' ∉ path.toList → path ∉ replaced.map Prod.fst) →
      forFork line replaced c = renameAll c line) ∧
    (∀ text, Text.split (forFork text replaced c) '\n' =
      (Text.split text '\n').map fun line => forFork line replaced c) ∧
    ∀ text, (forFork text replaced c).toList.getLast? = some '\n' ↔
      text.toList.getLast? = some '\n' := by
  have h : LineFree c := ⟨hpackage, hfork⟩
  refine ⟨fun a b => ?append, fun path rest content before after hline hcomma heq hfirst => ?fresh,
    fun line hline hother => ?other, fun text => ?lines, h.getLast?_forFork⟩
  case append =>
    rw [← String.toList_inj, h.toList_forFork_append]
    simp
  case fresh =>
    rw [forFork_line hline, heq, forkLine_of_first hcomma hfirst, String.ofList_toList]
    rfl
  case other => rw [forFork_line hline, forkLine_of_other hother, String.ofList_toList]
  case lines =>
    unfold Text.split
    rw [h.split_forFork, List.map_map, List.map_map]
    refine List.map_congr_left fun line hline => ?_
    rw [Function.comp_apply, Function.comp_apply, ← String.toList_inj, String.toList_ofList,
      toList_forFork_line (by rw [String.toList_ofList]; exact Chars.not_mem_of_mem_split hline),
      String.toList_ofList]

theorem forFork_lines_letters :
    '\n' ∉ Config.letters.distName.toList ∧ '\n' ∉ Config.letters.forkDistName.toList ∧
    forFork "p-1/a,,\np-1/b,," [("p-1/a", [])] Config.letters =
      forFork "p-1/a,," [("p-1/a", [])] Config.letters ++ "\n" ++
      forFork "p-1/b,," [("p-1/a", [])] Config.letters ∧
    forFork "p-1/b,," [("p-1/a", [])] Config.letters = renameAll Config.letters "p-1/b,," := by
  have hpackage : '\n' ∉ Config.letters.distName.toList := by decide +kernel
  have hfork : '\n' ∉ Config.letters.forkDistName.toList := by decide +kernel
  obtain ⟨happend, -, hother, -⟩ := forFork_lines hpackage hfork [("p-1/a", [])]
  refine ⟨hpackage, hfork, happend "p-1/a,," "p-1/b,,", hother "p-1/b,," (by decide +kernel) ?_⟩
  intro path rest heq hcomma hmem
  rw [List.map_singleton, List.mem_singleton] at hmem
  rw [hmem] at heq
  have hchars := congrArg String.toList heq
  simp at hchars

end Rebadge.Record
