import Rebadge.ProjectFile
import Rebadge.Proofs.Record.Renaming
import Rebadge.Proofs.Text.Lines

/-!
# The lines of the fork's project file

The project file is edited line by line, and each line ends with one line feed afterwards
(`toList_forFork`). The line of the dependency is replaced, and the name is declared anew behind
white space at the start of a line. But the text of the declaration is replaced wherever a line
holds it, also at the end of another key or inside a value, so a line that holds it elsewhere
changes although it should not (`project_lines_iff`).
-/

namespace Rebadge

namespace Chars

variable {pat rep s : List Char}

theorem replaceFrom_append_of_not_mem {x : Char} {a : List Char} (hx : x ∉ a) (s : List Char) :
    replaceFrom (x :: pat) rep 0 (a ++ s) = a ++ replaceFrom (x :: pat) rep 0 s := by
  induction a with
  | nil => rfl
  | cons c a ih =>
    rw [List.mem_cons, not_or] at hx
    have hpre : ¬ (x :: pat).isPrefixOf (c :: a ++ s) = true := by
      rw [List.cons_append, List.isPrefixOf_cons_cons, Bool.and_eq_true, beq_iff_eq]
      exact fun h => hx.1 h.1
    rw [List.cons_append, replaceFrom, ← List.cons_append, if_neg hpre, ih hx.2, List.cons_append]

theorem replaceFrom_self (hpat : pat ≠ []) (s : List Char) : replaceFrom pat pat 0 s = s := by
  induction hn : s.length using Nat.strongRecOn generalizing s with
  | ind n ih =>
    cases s with
    | nil => rfl
    | cons c s =>
      by_cases hpre : pat <+: c :: s
      · obtain ⟨rest, hrest⟩ := hpre
        have hlen := congrArg List.length hrest
        rw [List.length_append] at hlen
        have hpos := List.length_pos_iff.2 hpat
        rw [← hrest, replaceFrom_prefix hpat, ih rest.length (by omega) rest rfl]
      · rw [List.length_cons] at hn
        rw [replaceFrom, if_neg fun h => hpre (List.isPrefixOf_iff_prefix.1 h),
          ih s.length (by omega) s rfl]

theorem join_concat {ps : List (List Char)} {sep : Char} (hne : ps ≠ []) :
    join sep ps ++ [sep] = ps.flatMap (· ++ [sep]) := by
  induction ps with
  | nil => exact absurd rfl hne
  | cons p ps ih =>
    by_cases hps : ps = []
    · simp [hps]
    · rw [join_cons sep p hps, List.flatMap_cons, ← ih hps, List.append_assoc,
        List.append_assoc, List.cons_append, List.singleton_append]

/-- What does not hold the common start of pattern and replacement starts a text afterwards exactly
if it did before. -/
theorem prefix_replaceFrom_iff {q u v k : List Char} (hk : ¬ q <:+: k) :
    k <+: replaceFrom (q ++ u) (q ++ v) 0 s ↔ k <+: s := by
  induction k generalizing s with
  | nil => exact iff_of_true List.nil_prefix List.nil_prefix
  | cons x k ih =>
    have hstart : ∀ r r', x :: k <+: q ++ r → x :: k <+: q ++ r' := by
      intro r r' h
      rcases List.prefix_or_prefix_of_prefix h (List.prefix_append q r) with hle | hle
      · exact hle.trans (List.prefix_append q r')
      · exact absurd hle.isInfix hk
    cases s with
    | nil => rfl
    | cons c s =>
      rw [replaceFrom]
      split
      · next hpre =>
        obtain ⟨rest, hrest⟩ := List.isPrefixOf_iff_prefix.1 hpre
        rw [← hrest, List.append_assoc, List.append_assoc]
        exact ⟨hstart _ _, hstart _ _⟩
      · rw [List.cons_prefix_cons, List.cons_prefix_cons,
          ih fun h => hk (h.trans (List.suffix_cons x k).isInfix)]

end Chars

namespace ProjectFile

open Chars (replaceAll replaceFrom WorksBeside)

variable {c : Config} {text : String} {line : List Char} {blank : Char → Bool}

/-! ## Line by line -/

/-- The text with the name declared anew wherever it is declared. -/
def named (c : Config) (s : List Char) : List Char :=
  replaceAll (nameDeclaration c.package).toList (nameDeclaration c.forkPackage).toList s

/-- The start of the dependency's line. -/
def keyStart (c : Config) : List Char := (c.dependency.projectKey ++ " = ").toList

/-- The line of the fork. -/
def edited (c : Config) (line : List Char) : List Char :=
  if keyStart c <+: named c line then c.dependency.projectLine.toList else named c line

theorem toList_nameDeclaration (name : String) :
    (nameDeclaration name).toList = "name = \"".toList ++ (name.toList ++ ['"']) := by
  unfold nameDeclaration
  rw [String.toList_append, String.toList_append, List.append_assoc]
  rfl

theorem nameDeclaration_ne_nil (name : String) : (nameDeclaration name).toList ≠ [] := by
  simp [nameDeclaration]

theorem not_mem_nameDeclaration {name : String} (h : Name.isValid name = true) {x : Char}
    (hx : x.isAlphanum = false) (hsep : Name.isSeparator x = false)
    (hdeclaration : x ∉ "name = \"".toList) : x ∉ (nameDeclaration name).toList := by
  have hquote : x ≠ '"' := fun heq => hdeclaration (heq ▸ by decide)
  rw [toList_nameDeclaration, List.mem_append, List.mem_append, List.mem_singleton, not_or, not_or]
  exact ⟨hdeclaration, Name.not_mem_of_isValid h hx hsep, hquote⟩

theorem named_eq (c : Config) (s : List Char) : named c s =
    replaceFrom (nameDeclaration c.package).toList (nameDeclaration c.forkPackage).toList 0 s := by
  unfold named Chars.replaceAll
  rw [if_neg (nameDeclaration_ne_nil _)]

theorem worksBeside_named (hc : c.NamesValid) {x : Char} (hx : x.isAlphanum = false)
    (hsep : Name.isSeparator x = false) (hdeclaration : x ∉ "name = \"".toList) :
    WorksBeside x (named c) :=
  Chars.worksBeside_replaceAll (not_mem_nameDeclaration hc.package hx hsep hdeclaration)
    (not_mem_nameDeclaration hc.forkPackage hx hsep hdeclaration)

theorem named_eq_nil_iff (c : Config) (s : List Char) : named c s = [] ↔ s = [] :=
  Chars.replaceAll_eq_nil_iff (nameDeclaration_ne_nil _) (nameDeclaration_ne_nil _)

theorem lines_named (hc : c.NamesValid) (s : List Char) :
    Chars.lines (named c s) = (Chars.lines s).map (named c) :=
  Chars.lines_map (worksBeside_named hc (by decide) (by decide) (by decide))
    (worksBeside_named hc (by decide) (by decide) (by decide)) (named_eq_nil_iff c) s

theorem toList_forkLine (c : Config) (line : List Char) :
    (forkLine c.dependency (.ofList line)).toList =
    if keyStart c <+: line then c.dependency.projectLine.toList else line := by
  unfold forkLine Text.hasPrefix keyStart
  rw [String.toList_ofList, apply_ite String.toList, String.toList_ofList]
  simp only [List.isPrefixOf_iff_prefix]

theorem map_forkLine (hc : c.NamesValid) (text : String) :
    ((Text.lines (Text.replaceAll text (nameDeclaration c.package)
      (nameDeclaration c.forkPackage))).map
      (forkLine c.dependency)).map String.toList = (Chars.lines text.toList).map (edited c) := by
  have hlines : Chars.lines (named c text.toList) = (Chars.lines text.toList).map (named c) :=
    lines_named hc text.toList
  unfold named at hlines
  unfold Text.lines Text.replaceAll
  rw [String.toList_ofList, hlines, List.map_map, List.map_map, List.map_map]
  exact List.map_congr_left fun line _ => toList_forkLine c (named c line)

/-- **Line by line.** Each line is edited by itself and ends with one line feed. -/
theorem toList_forFork (hc : c.NamesValid) (htext : text ≠ "") :
    (forFork text c).toList = ((Chars.lines text.toList).map (edited c)).flatMap (· ++ ['\n']) := by
  have hne : (Chars.lines text.toList).map (edited c) ≠ [] := by
    rw [ne_eq, List.map_eq_nil_iff, Chars.lines_eq_nil]
    exact fun hnil => htext (String.toList_eq_nil_iff.1 hnil)
  rw [← Chars.join_concat hne, ← map_forkLine hc]
  unfold forFork
  rw [String.toList_append, String.toList_intercalate]
  rfl

/-! ## Declarations at the start of a line -/

/-- What follows white space and the declaration at the start of the line. -/
def afterDeclaration? (c : Config) (blank : Char → Bool) (line : List Char) : Option (List Char) :=
  (nameDeclaration c.package).toList.isPrefixOf? (line.dropWhile blank)

/-- The line as it should be: the dependency's line is replaced, and a declaration of the package
behind white space at the start of another line becomes one of the fork. -/
def intended (c : Config) (blank : Char → Bool) (line : List Char) : List Char :=
  if keyStart c <+: line then c.dependency.projectLine.toList
  else match afterDeclaration? c blank line with
    | some rest => line.takeWhile blank ++ ((nameDeclaration c.forkPackage).toList ++ rest)
    | none => line

/-- The line holds the declaration in another place than behind white space at its start. -/
def HoldsStray (c : Config) (blank : Char → Bool) (line : List Char) : Prop :=
  (nameDeclaration c.package).toList <:+: (afterDeclaration? c blank line).getD line

/-- Declarations change exactly if the names differ. -/
theorem named_eq_self_iff (hc : c.NamesValid) {s : List Char} :
    named c s = s ↔ c.package = c.forkPackage ∨ ¬ (nameDeclaration c.package).toList <:+: s := by
  rw [named_eq]
  by_cases hsame : c.package = c.forkPackage
  · rw [hsame]
    exact iff_of_true (Chars.replaceFrom_self (nameDeclaration_ne_nil _) s) (Or.inl rfl)
  · have hquote : ∀ {name : String}, Name.isValid name = true → '"' ∉ name.toList := fun h =>
      Name.not_mem_of_isValid h (by decide) (by decide)
    have hapart : ∀ x y, (nameDeclaration c.forkPackage).toList ++ x ≠
        (nameDeclaration c.package).toList ++ y := by
      intro x y heq
      rw [toList_nameDeclaration, toList_nameDeclaration, List.append_assoc,
        List.append_assoc, List.append_assoc, List.append_assoc, List.append_cancel_left_eq] at heq
      have hnames := ((Chars.append_sep_inj (hquote hc.forkPackage) (hquote hc.package)).1 heq).1
      exact hsame (String.toList_inj.1 hnames.symm)
    rw [Chars.replaceFrom_eq_self_iff hapart, or_iff_right hsame]

/-- **The edit as it should be** is the edit as it is, unless the line holds a stray declaration. -/
theorem edited_eq_intended_iff (hc : c.NamesValid) (hblank : blank 'n' = false)
    (hkey : ¬ "name = \"".toList <:+: keyStart c) :
    edited c line = intended c blank line ↔
      c.package = c.forkPackage ∨ keyStart c <+: line ∨ ¬ HoldsStray c blank line := by
  have hstart : keyStart c <+: named c line ↔ keyStart c <+: line := by
    rw [named_eq, toList_nameDeclaration, toList_nameDeclaration]
    exact Chars.prefix_replaceFrom_iff hkey
  unfold edited intended HoldsStray
  by_cases hdependency : keyStart c <+: line
  · rw [if_pos (hstart.2 hdependency), if_pos hdependency]
    exact iff_of_true rfl (Or.inr (Or.inl hdependency))
  rw [if_neg (hstart.not.2 hdependency), if_neg hdependency, or_iff_right hdependency]
  cases hafter : afterDeclaration? c blank line with
  | none => exact named_eq_self_iff hc
  | some rest =>
    have hdeclared := List.isPrefixOf?_eq_some_iff_append_eq.1 hafter
    have hnot : 'n' ∉ line.takeWhile blank := fun hmem => by
      have hall := List.all_eq_true.1 List.all_takeWhile 'n' hmem
      rw [hblank] at hall
      exact absurd hall (by decide)
    have hline : named c line = line.takeWhile blank ++
        ((nameDeclaration c.forkPackage).toList ++ named c rest) := by
      obtain ⟨pat, hpat⟩ : ∃ pat, (nameDeclaration c.package).toList = 'n' :: pat :=
        ⟨_, toList_nameDeclaration _⟩
      conv => lhs; rw [← List.takeWhile_append_dropWhile (p := blank) (l := line), ← hdeclared]
      rw [named_eq, named_eq, hpat, Chars.replaceFrom_append_of_not_mem hnot,
        Chars.replaceFrom_prefix (List.cons_ne_nil _ _)]
    show named c line = _ ++ (_ ++ rest) ↔ _
    rw [hline, List.append_cancel_left_eq, List.append_cancel_left_eq,
      named_eq_self_iff hc, Option.getD_some]

/-- **What changes in a project file.** The fork's project file has one line for each line of a
project file that is not empty, and each ends with one line feed. A line is edited as it should be
exactly if it is the dependency's line or holds the declaration of the package nowhere but behind
white space at its start, unless the fork has the package's name. This is so whatever counts as
white space, and for all keys that do not hold the start of a declaration themselves. -/
theorem project_lines_iff (hc : c.NamesValid) (hline : '\n' ∉ c.dependency.projectLine.toList)
    (htext : text ≠ "") :
    ∃ out : List (List Char), (forFork text c).toList = out.flatMap (· ++ ['\n']) ∧
      (∀ line ∈ out, '\n' ∉ line) ∧
      out.length = (Chars.lines text.toList).length ∧
      (¬ "name = \"".toList <:+: keyStart c → ∀ blank : Char → Bool, blank 'n' = false →
        ∀ (i : Nat) (line : List Char), (Chars.lines text.toList)[i]? = some line →
          (out[i]? = some (intended c blank line) ↔
            c.package = c.forkPackage ∨ keyStart c <+: line ∨ ¬ HoldsStray c blank line)) := by
  refine ⟨_, toList_forFork hc htext, fun line hmem => ?_, List.length_map _,
    fun hkey blank hblank i line hi => ?_⟩
  · obtain ⟨before, hbefore, rfl⟩ := List.mem_map.1 hmem
    unfold edited
    split
    · exact hline
    · exact (worksBeside_named hc (by decide) (by decide) (by decide)).not_mem _
        (Chars.lineFeed_not_mem_of_mem_lines hbefore)
  · rw [List.getElem?_map, hi, Option.map_some, Option.some.injEq,
      edited_eq_intended_iff hc hblank hkey]

/-- A project file that declares the name in a line of its own. -/
def poetryText : String := "[tool.poetry]\nname = \"pythonmonkey\"\n"

theorem project_lines_poetry :
    Config.NamesValid {} ∧ '\n' ∉ ({} : Config).dependency.projectLine.toList ∧ poetryText ≠ "" ∧
    ¬ "name = \"".toList <:+: keyStart {} ∧ ∃ out : List (List Char),
      (forFork poetryText {}).toList = out.flatMap (· ++ ['\n']) ∧
      out[1]? = some "name = \"pythonmonkey-fork\"".toList := by
  have hline : '\n' ∉ ({} : Config).dependency.projectLine.toList := by decide
  have htext : poetryText ≠ "" := by decide
  have hkey : ¬ "name = \"".toList <:+: keyStart {} := by decide +kernel
  have hdeclared : (Chars.lines poetryText.toList)[1]? = some "name = \"pythonmonkey\"".toList := by
    decide +kernel
  obtain ⟨out, hout, -, -, hkept⟩ := project_lines_iff Config.namesValid_default hline htext
  have hstray : ¬ HoldsStray {} Char.isWhitespace "name = \"pythonmonkey\"".toList := by
    unfold HoldsStray
    decide +kernel
  have hnamed : intended {} Char.isWhitespace "name = \"pythonmonkey\"".toList =
      "name = \"pythonmonkey-fork\"".toList := by
    decide +kernel
  have hfork := (hkept hkey Char.isWhitespace (by decide) 1 _ hdeclared).2 (Or.inr (Or.inr hstray))
  rw [hnamed] at hfork
  exact ⟨Config.namesValid_default, hline, htext, hkey, out, hout, hfork⟩

/-- A project file with another key that ends like the one of the name. -/
def displayText : String := "display-name = \"p\"\n"

/-- Its only line neither is the dependency's line nor declares the name, and it changes. -/
theorem display_name_changed :
    Config.letters.NamesValid ∧ '\n' ∉ Config.letters.dependency.projectLine.toList ∧
    displayText ≠ "" ∧ '\r' ∉ displayText.toList ∧
    Chars.lines displayText.toList = ["display-name = \"p\"".toList] ∧
    ¬ keyStart Config.letters <+: "display-name = \"p\"".toList ∧
    afterDeclaration? Config.letters Char.isWhitespace "display-name = \"p\"".toList = none ∧
    forFork displayText Config.letters = "display-name = \"f\"\n" := by
  exact ⟨Config.namesValid_letters,
    by decide, by decide, by decide +kernel, by decide +kernel, by decide +kernel,
    by decide +kernel, by decide +kernel⟩

end ProjectFile
end Rebadge
