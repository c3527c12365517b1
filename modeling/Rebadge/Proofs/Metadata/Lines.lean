import Rebadge.Config.Toml
import Rebadge.Metadata
import Rebadge.Proofs.Text.Lines
import Rebadge.Proofs.Version.Decomposition
import Rebadge.Proofs.Version.Separating

/-!
# The lines of the fork's metadata

The name is declared anew in the first line that holds its declaration; the dependency and the local
versions are edited in every line by itself (`split_forFork`). So a line that holds nothing to edit
stays where it is, unless the text of the dependency that gives way is empty: then what replaces it
is put between all characters, and no line is left as it was (`untouched_line_kept_iff`).
-/

namespace Rebadge

namespace Version

variable {cuts : List Cut} {s : List Char}

/-! ## Dots -/

theorem CutsValid.count_dot (h : CutsValid cuts) :
    (textOf cuts).count '.' = (baseOf cuts).count '.' := by
  induction cuts with
  | nil => rfl
  | cons c cuts ih =>
    have hlabel : c.label.count '.' = 0 := List.count_eq_zero.2 h.1.label.dot
    have hplus : ('+' :: (c.label ++ (c.gap ++ textOf cuts))).count '.' =
        (c.label ++ (c.gap ++ textOf cuts)).count '.' :=
      List.count_cons_of_ne (by decide)
    rw [textOf_cons, baseOf_cons, List.count_append, hplus, List.count_append,
      List.count_append, hlabel, ih h.2, List.count_append, List.count_append, Nat.zero_add]

theorem count_dot_stripFrom (s : List Char) : (stripFrom 0 s).count '.' = s.count '.' := by
  obtain ⟨d, hd, rfl⟩ := exists_decomposition s
  rw [hd.stripFrom]
  unfold Decomposition.text Decomposition.base
  rw [List.count_append, List.count_append, hd.cuts.count_dot]

end Version

namespace Chars

variable {rep s a b : List Char}

/-! ## An empty pattern -/

theorem replaceAll_nil_cons (rep : List Char) (c : Char) (s : List Char) :
    replaceAll [] rep (c :: s) = rep ++ c :: replaceAll [] rep s := by
  simp [replaceAll]

theorem prefix_replaceAll_nil (rep s : List Char) : rep <+: replaceAll [] rep s := by
  cases s with
  | nil => exact ⟨[], by simp [replaceAll]⟩
  | cons c s =>
    rw [replaceAll_nil_cons]
    exact List.prefix_append rep _

theorem replaceAll_nil_nil (s : List Char) : replaceAll [] [] s = s := by
  simp [replaceAll]

theorem length_replaceAll_nil (rep s : List Char) :
    (replaceAll [] rep s).length = s.length + (s.length + 1) * rep.length := by
  induction s with
  | nil => simp [replaceAll]
  | cons c s ih =>
    rw [replaceAll_nil_cons, List.length_append, List.length_cons, ih, List.length_cons,
      Nat.succ_mul (s.length + 1)]
    omega

theorem count_replaceAll_nil (x : Char) (rep s : List Char) :
    (replaceAll [] rep s).count x = s.count x + (s.length + 1) * rep.count x := by
  induction s with
  | nil => simp [replaceAll]
  | cons c s ih =>
    rw [replaceAll_nil_cons, List.count_append, List.count_cons, ih,
      List.count_cons, List.length_cons, Nat.succ_mul (s.length + 1)]
    omega

theorem prefix_of_replaceAll_nil_eq {x : Char} (hx : x ∉ rep)
    (h : replaceAll [] rep s = a ++ x :: b) : rep <+: b := by
  induction s generalizing a with
  | nil =>
    have hmem : x ∈ replaceAll [] rep [] := by simp [h]
    exact absurd ((mem_replaceAll hmem).resolve_left List.not_mem_nil) hx
  | cons c s ih =>
    rw [replaceAll_nil_cons] at h
    rcases List.append_eq_append_iff.1 h with ⟨k, rfl, hk⟩ | ⟨k, hrep, hk⟩
    · cases k with
      | nil =>
        rw [List.nil_append, List.cons.injEq] at hk
        exact hk.2 ▸ prefix_replaceAll_nil rep s
      | cons y k =>
        rw [List.cons_append, List.cons.injEq] at hk
        exact ih hk.2
    · cases k with
      | nil =>
        rw [List.nil_append, List.cons.injEq] at hk
        exact hk.2 ▸ prefix_replaceAll_nil rep s
      | cons y k =>
        rw [List.cons_append, List.cons.injEq] at hk
        exact absurd (by rw [hrep, hk.1]; simp) hx

end Chars

namespace Metadata

open Chars (split replaceAll replaceFirst replaceFirstIn WorksBeside)

variable {c : Config} {line s : List Char} {x : Char}

/-! ## The edits -/

/-- The text with the other dependency and without local versions. -/
def edited (c : Config) (s : List Char) : List Char :=
  Version.stripFrom 0 (replaceAll c.dependency.metadataFrom.toList c.dependency.metadataTo.toList s)

/-- The text with the first declaration of the name changed. -/
def named (c : Config) (s : List Char) : List Char :=
  replaceFirst (nameLine c.package).toList (nameLine c.forkPackage).toList s

theorem toList_forFork (text : String) (c : Config) :
    (forFork text c).toList = edited c (named c text.toList) := by
  unfold forFork edited named Version.stripLocalVersion Text.replaceAll Text.replaceFirst
  rw [String.toList_ofList, String.toList_ofList, String.toList_ofList]

theorem nameLine_ne_nil (name : String) : (nameLine name).toList ≠ [] := by
  simp [nameLine]

/-- The character stands neither in the names nor in the texts of the dependency. -/
structure Lacks (c : Config) (x : Char) : Prop where
  package : x ∉ c.package.toList
  forkPackage : x ∉ c.forkPackage.toList
  metadataFrom : x ∉ c.dependency.metadataFrom.toList
  metadataTo : x ∉ c.dependency.metadataTo.toList

/-- A line end is no part of a declaration, nor of a local version. -/
structure IsLineEnd (x : Char) : Prop where
  declaration : x ∉ "Name: ".toList
  word : Text.isWordChar x = false
  dot : x ≠ '.'
  plus : x ≠ '+'

theorem isLineEnd_lineFeed : IsLineEnd '\n' := ⟨by decide, by decide, by decide, by decide⟩

theorem isLineEnd_carriageReturn : IsLineEnd '\r' := ⟨by decide, by decide, by decide, by decide⟩

theorem IsLineEnd.nameLine (hx : IsLineEnd x) {name : String} (h : x ∉ name.toList) :
    x ∉ (nameLine name).toList := by
  unfold Metadata.nameLine
  rw [String.toList_append, List.mem_append, not_or]
  exact ⟨hx.declaration, h⟩

theorem worksBeside_edited (hx : IsLineEnd x) (h : Lacks c x) : WorksBeside x (edited c) := by
  have hstrip := Version.worksBeside_stripFrom ⟨hx.word, hx.dot, hx.plus⟩
  exact hstrip.comp (Chars.worksBeside_replaceAll h.metadataFrom h.metadataTo)

/-- **Line by line.** The name is declared anew in the first line that holds its declaration, and
each line is edited by itself. -/
theorem split_forFork (h : Lacks c '\n') (text : String) : split '\n' (forFork text c).toList =
    (replaceFirstIn (nameLine c.package).toList (nameLine c.forkPackage).toList
      (split '\n' text.toList)).map (edited c) := by
  rw [toList_forFork, (worksBeside_edited isLineEnd_lineFeed h).split]
  unfold named
  rw [Chars.split_replaceFirst (nameLine_ne_nil _) (isLineEnd_lineFeed.nameLine h.package)
    (isLineEnd_lineFeed.nameLine h.forkPackage)]

/-! ## Lines with nothing to edit -/

/-- The line holds no declaration of the package, no local version and, if there is one, no
dependency to replace. -/
structure Untouched (c : Config) (line : List Char) : Prop where
  name : ¬ (nameLine c.package).toList <:+: line
  dependency : c.dependency.metadataFrom ≠ "" → ¬ c.dependency.metadataFrom.toList <:+: line
  version : ¬ Version.HoldsLocal line

/-- A local version needs dots, and what is put behind each dot cannot go on both with a number and
with `dev`. -/
theorem not_holdsLocal_replaceAll_nil {rep : List Char} (hrep : rep ≠ [])
    (hdot : '.' ∉ rep) (s : List Char) : ¬ Version.HoldsLocal (replaceAll [] rep s) := by
  rintro ⟨before, _, label, after, ⟨major, _, -, ⟨minor, patch, dev, hminor, -, -, rfl⟩, rfl⟩,
    -, htext⟩
  obtain ⟨r, rep, rfl⟩ := List.exists_cons_of_ne_nil hrep
  obtain ⟨m, minor, rfl⟩ := List.exists_cons_of_ne_nil hminor.ne_nil
  have hfirst : r :: rep <+: m :: minor ++ '.' :: patch ++ '.' :: 'd' :: 'e' :: 'v' :: dev ++
      '+' :: (label ++ after) :=
    Chars.prefix_of_replaceAll_nil_eq (a := before ++ major) hdot (by rw [htext]; simp)
  have hlast : r :: rep <+: 'd' :: 'e' :: 'v' :: dev ++ '+' :: (label ++ after) :=
    Chars.prefix_of_replaceAll_nil_eq
      (a := before ++ major ++ '.' :: m :: minor ++ '.' :: patch) hdot (by rw [htext]; simp)
  obtain rfl : r = m := (List.cons_prefix_cons.1 hfirst).1
  obtain rfl : r = 'd' := (List.cons_prefix_cons.1 hlast).1
  exact absurd (hminor.digit 'd' List.mem_cons_self) (by decide)

/-- Put between all characters, a text that is not empty never goes away with the local versions. -/
theorem stripFrom_replaceAll_nil_ne {rep : List Char} (hrep : rep ≠ []) (s : List Char) :
    Version.stripFrom 0 (replaceAll [] rep s) ≠ s := by
  intro hself
  have hcount := Version.count_dot_stripFrom (replaceAll [] rep s)
  rw [hself, Chars.count_replaceAll_nil, eq_comm, Nat.add_eq_left, Nat.mul_eq_zero] at hcount
  have hdot : '.' ∉ rep := List.count_eq_zero.1 (hcount.resolve_left (Nat.succ_ne_zero _))
  rw [(Version.settled_iff _).2 (not_holdsLocal_replaceAll_nil hrep hdot s)] at hself
  have hlength := congrArg List.length hself
  rw [Chars.length_replaceAll_nil, Nat.add_eq_left, Nat.mul_eq_zero, List.length_eq_zero_iff]
    at hlength
  exact hrep (hlength.resolve_left (Nat.succ_ne_zero _))

/-- **Lines with nothing to edit** stay, unless something is put into the empty text. -/
theorem edited_eq_self_iff (h : Untouched c line) :
    edited c line = line ↔ c.dependency.metadataFrom ≠ "" ∨ c.dependency.metadataTo = "" := by
  unfold edited
  by_cases hfrom : c.dependency.metadataFrom = ""
  · rw [hfrom, or_iff_right (not_not.2 rfl)]
    by_cases hto : c.dependency.metadataTo = ""
    · rw [hto]
      exact iff_of_true ((congrArg _ (Chars.replaceAll_nil_nil line)).trans
        ((Version.settled_iff line).2 h.version)) rfl
    · exact iff_of_false
        (stripFrom_replaceAll_nil_ne (fun hnil => hto (String.toList_eq_nil_iff.1 hnil)) line) hto
  · have hne : c.dependency.metadataFrom.toList ≠ [] :=
      fun hnil => hfrom (String.toList_eq_nil_iff.1 hnil)
    rw [Chars.replaceAll_eq_self hne (h.dependency hfrom)]
    exact iff_of_true ((Version.settled_iff line).2 h.version) (Or.inl hfrom)

/-- **All else is kept.** The metadata of the fork has as many lines as that of the package. A line
with nothing to edit is found unchanged at its place exactly if the dependency's text that gives way
is not empty, or nothing takes its place. -/
theorem untouched_line_kept_iff (h : Lacks c '\n') (text : String) :
    (split '\n' (forFork text c).toList).length = (split '\n' text.toList).length ∧
      ∀ (i : Nat) (line : List Char), (split '\n' text.toList)[i]? = some line → Untouched c line →
        ((split '\n' (forFork text c).toList)[i]? = some line ↔
          c.dependency.metadataFrom ≠ "" ∨ c.dependency.metadataTo = "") := by
  rw [split_forFork h]
  refine ⟨by rw [List.length_map, Chars.length_replaceFirstIn], fun i line hline huntouched => ?_⟩
  rw [List.getElem?_map, Chars.getElem?_replaceFirstIn hline huntouched.name,
    Option.map_some, Option.some.injEq, edited_eq_self_iff huntouched]

theorem lacks_default : Lacks {} '\n' := ⟨by decide, by decide, by decide, by decide⟩

instance (c : Config) (line : List Char) : Decidable (Untouched c line) :=
  decidable_of_iff (¬ (nameLine c.package).toList <:+: line ∧
      (c.dependency.metadataFrom ≠ "" → ¬ c.dependency.metadataFrom.toList <:+: line) ∧
      Version.stripFrom 0 line = line)
    ⟨fun h => ⟨h.1, h.2.1, (Version.settled_iff line).1 h.2.2⟩,
      fun h => ⟨h.name, h.dependency, (Version.settled_iff line).2 h.version⟩⟩

/-- Metadata with a description. -/
def describedText : String :=
  "Metadata-Version: 2.1\nName: pythonmonkey\nVersion: 1.1.1.dev3+a1b2c3\n\nSee pythonmonkey.\n"

theorem untouched_line_kept_described :
    Lacks {} '\n' ∧ (split '\n' describedText.toList)[4]? = some "See pythonmonkey.".toList ∧
      Untouched {} "See pythonmonkey.".toList ∧
      (split '\n' (forFork describedText {}).toList)[4]? = some "See pythonmonkey.".toList := by
  have hline : (split '\n' describedText.toList)[4]? = some "See pythonmonkey.".toList := by
    decide +kernel
  have huntouched : Untouched {} "See pythonmonkey.".toList := by decide +kernel
  have hkept := ((untouched_line_kept_iff lacks_default describedText).2 4 _ hline huntouched).2
    (Or.inl (by decide))
  exact ⟨lacks_default, hline, huntouched, hkept⟩

/-- A configuration that looks for an empty text. -/
def emptyText : String := "[dependency]\nmetadata_from = \"\"\nmetadata_to = \"b\"\n"

/-- The configuration of that text. -/
def emptyConfig : Config := { dependency := { metadataFrom := "", metadataTo := "b" } }

/-- It is accepted, and a line with nothing to edit does not stay. -/
theorem empty_line_spoiled : Config.parse emptyText = .ok emptyConfig ∧ Lacks emptyConfig '\n' ∧
    Untouched emptyConfig ['a'] ∧ (split '\n' "a".toList)[0]? = some ['a'] ∧
      (split '\n' (forFork "a" emptyConfig).toList)[0]? = some ['b', 'a', 'b'] := by
  refine ⟨by decide +kernel, ⟨by decide, by decide, by decide, by decide⟩, by decide +kernel,
    by decide, by decide +kernel⟩

end Metadata
end Rebadge
