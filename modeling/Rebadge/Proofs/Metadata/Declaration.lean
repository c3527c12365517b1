import Rebadge.Proofs.Metadata.Lines
import Rebadge.Proofs.Record.Renaming

/-!
# The declared name

The header block of metadata is what stands before the first empty line, and one of its lines
declares the name. The name is declared anew in the first line that holds the declaration, at its
start or not, so an earlier line that mentions it keeps the declaration from being changed. Apart
from that the fork's header declares the fork's name in the same line, unless the edit of the
dependency reaches into the name or makes another declaration (`declares_forFork_iff`). It does
neither if both texts of the dependency are requirements.
-/

namespace Rebadge

namespace Version

/-- A text without digits at the start was there before local versions were cut. -/
theorem prefix_of_prefix_stripFrom {w s : List Char} (hw : ∀ x ∈ w, Text.isDecimalDigit x = false)
    (h : w <+: stripFrom 0 s) : w <+: s := by
  induction w generalizing s with
  | nil => exact List.nil_prefix
  | cons x w ih =>
    obtain ⟨hx, hw⟩ := List.forall_mem_cons.1 hw
    cases s with
    | nil => exact h
    | cons c s =>
      cases hm : localVersion? (c :: s) with
      | none =>
        rw [stripFrom_none hm] at h
        obtain ⟨rfl, htail⟩ := List.cons_prefix_cons.1 h
        exact List.cons_prefix_cons.2 ⟨rfl, ih hw htail⟩
      | some m =>
        obtain ⟨major, tail, hmajor, -, hbase⟩ := isDev_of_localVersion? hm
        obtain ⟨y, major, rfl⟩ := List.exists_cons_of_ne_nil hmajor.ne_nil
        rw [stripFrom_some hm, hbase] at h
        obtain rfl : x = y := (List.cons_prefix_cons.1 h).1
        exact absurd (hmajor.digit x List.mem_cons_self) (by simp [hx])

end Version

namespace Chars

variable {pat rep s : List Char}

/-- A text at the start in which no replacement can begin was there before. -/
theorem prefix_of_prefix_replaceFrom {w : List Char} (hrep : rep ≠ []) (hw : ∀ x ∈ rep.head?, x ∉ w)
    (h : w <+: replaceFrom pat rep 0 s) : w <+: s := by
  induction w generalizing s with
  | nil => exact List.nil_prefix
  | cons x w ih =>
    cases s with
    | nil => exact h
    | cons c s =>
      rw [replaceFrom] at h
      split at h
      · obtain ⟨y, rep, rfl⟩ := List.exists_cons_of_ne_nil hrep
        obtain rfl : x = y := (List.cons_prefix_cons.1 h).1
        exact absurd List.mem_cons_self (hw x rfl)
      · obtain ⟨rfl, htail⟩ := List.cons_prefix_cons.1 h
        exact List.cons_prefix_cons.2
          ⟨rfl, ih (fun y hy hmem => hw y hy (List.mem_cons_of_mem x hmem)) htail⟩

theorem replaceFirst_self (pat s : List Char) : replaceFirst pat pat s = s := by
  by_cases hpat : pat = []
  · rw [hpat]
    cases s <;> rfl
  · by_cases hs : pat <:+: s
    · obtain ⟨a, b, rfl, hreplaced⟩ := replaceFirst_of_infix hpat pat hs
      exact hreplaced
    · exact replaceFirst_eq_self hpat hs

theorem replaceFirstIn_self (pat : List Char) (ps : List (List Char)) :
    replaceFirstIn pat pat ps = ps := by
  induction ps with
  | nil => rfl
  | cons p ps ih => rw [replaceFirstIn, replaceFirst_self, ih, ite_self]

/-- The texts before the first one of a kind, where a replacement keeps the kinds. -/
theorem takeWhile_replaceFirstIn {q : List Char → Bool}
    (hq : ∀ p, pat <:+: p → q (replaceFirst pat rep p) = q p) (ps : List (List Char)) :
    (replaceFirstIn pat rep ps).takeWhile q = replaceFirstIn pat rep (ps.takeWhile q) := by
  induction ps with
  | nil => rfl
  | cons p ps ih =>
    rw [replaceFirstIn]
    by_cases hp : pat <:+: p
    · rw [if_pos hp, List.takeWhile_cons, List.takeWhile_cons, hq p hp]
      split
      · rw [replaceFirstIn, if_pos hp]
      · rfl
    · rw [if_neg hp, List.takeWhile_cons, List.takeWhile_cons]
      split
      · rw [replaceFirstIn, if_neg hp, ih]
      · rfl

end Chars

namespace Metadata

open Chars (replaceFirst replaceFirstIn)

variable {c : Config} {text name : String} {i : Nat}

/-! ## Headers and declarations -/

/-- The header block: the lines before the first empty one. -/
def header (text : String) : List (List Char) := (Chars.lines text.toList).takeWhile (· != [])

/-- What starts a declaration. -/
def nameField : List Char := "Name:".toList

/-- One line of the header starts as a declaration does, the one with number `i`. It declares the
name. -/
structure Declares (text : String) (i : Nat) (name : String) : Prop where
  line : (header text)[i]? = some (nameLine name).toList
  only : ∀ (k : Nat) (line : List Char), (header text)[k]? = some line → nameField <+: line → k = i

instance (text : String) (i : Nat) (name : String) : Decidable (Declares text i name) :=
  decidable_of_iff ((header text)[i]? = some (nameLine name).toList ∧
      ∀ (k : Nat) (hk : k < (header text).length), nameField <+: (header text)[k] → k = i)
    ⟨fun h => ⟨h.1, fun k line hline => by
        obtain ⟨hk, rfl⟩ := List.getElem?_eq_some_iff.1 hline
        exact h.2 k hk⟩,
      fun h => ⟨h.line, fun k hk => h.only k _ (List.getElem?_eq_getElem hk)⟩⟩

/-- The declaration occurs in an earlier line of the header, which does not start with it. -/
def MentionedBefore (c : Config) (text : String) (i : Nat) : Prop :=
  ∃ line ∈ (header text).take i, (nameLine c.package).toList <:+: line

instance (c : Config) (text : String) (i : Nat) : Decidable (MentionedBefore c text i) :=
  inferInstanceAs (Decidable (∃ line ∈ (header text).take i, (nameLine c.package).toList <:+: line))

/-- The header with the first occurrence of the declaration changed. -/
def namedHeader (c : Config) (text : String) : List (List Char) :=
  replaceFirstIn (nameLine c.package).toList (nameLine c.forkPackage).toList (header text)

/-- The texts of the dependency are lines that are not empty. -/
structure DependencyLines (d : Dependency) : Prop where
  from_ne : d.metadataFrom ≠ ""
  to_ne : d.metadataTo ≠ ""
  from_lineEnd : '\n' ∉ d.metadataFrom.toList ∧ '\r' ∉ d.metadataFrom.toList
  to_lineEnd : '\n' ∉ d.metadataTo.toList ∧ '\r' ∉ d.metadataTo.toList

instance (d : Dependency) : Decidable (DependencyLines d) :=
  decidable_of_iff (d.metadataFrom ≠ "" ∧ d.metadataTo ≠ "" ∧
      ('\n' ∉ d.metadataFrom.toList ∧ '\r' ∉ d.metadataFrom.toList) ∧ '\n' ∉ d.metadataTo.toList ∧
      '\r' ∉ d.metadataTo.toList)
    ⟨fun h => ⟨h.1, h.2.1, h.2.2.1, h.2.2.2⟩,
      fun h => ⟨h.from_ne, h.to_ne, h.from_lineEnd, h.to_lineEnd⟩⟩

theorem lacks_lineFeed (hc : c.NamesValid) (hd : DependencyLines c.dependency) : Lacks c '\n' where
  package := Name.not_mem_of_isValid hc.package (by decide) (by decide)
  forkPackage := Name.not_mem_of_isValid hc.forkPackage (by decide) (by decide)
  metadataFrom := hd.from_lineEnd.1
  metadataTo := hd.to_lineEnd.1

theorem lacks_carriageReturn (hc : c.NamesValid) (hd : DependencyLines c.dependency) :
    Lacks c '\r' where
  package := Name.not_mem_of_isValid hc.package (by decide) (by decide)
  forkPackage := Name.not_mem_of_isValid hc.forkPackage (by decide) (by decide)
  metadataFrom := hd.from_lineEnd.2
  metadataTo := hd.to_lineEnd.2

theorem edited_eq_nil_iff (hd : DependencyLines c.dependency) (s : List Char) :
    edited c s = [] ↔ s = [] := by
  have hfrom : c.dependency.metadataFrom.toList ≠ [] :=
    fun hnil => hd.from_ne (String.toList_eq_nil_iff.1 hnil)
  have hto : c.dependency.metadataTo.toList ≠ [] :=
    fun hnil => hd.to_ne (String.toList_eq_nil_iff.1 hnil)
  unfold edited
  rw [Version.stripFrom_eq_nil_iff, Chars.replaceAll_eq_nil_iff hfrom hto]

/-- **The header of the fork** line by line. -/
theorem header_forFork (hc : c.NamesValid) (hd : DependencyLines c.dependency) (text : String) :
    header (forFork text c) = (namedHeader c text).map (edited c) := by
  have hfeed := lacks_lineFeed hc hd
  have hreturn := lacks_carriageReturn hc hd
  have hlines : Chars.lines (named c text.toList) =
      replaceFirstIn (nameLine c.package).toList (nameLine c.forkPackage).toList
      (Chars.lines text.toList) :=
    Chars.lines_replaceFirst (nameLine_ne_nil _) (nameLine_ne_nil _)
      ⟨isLineEnd_lineFeed.nameLine hfeed.package, isLineEnd_lineFeed.nameLine hfeed.forkPackage⟩
      ⟨isLineEnd_carriageReturn.nameLine hreturn.package,
        isLineEnd_carriageReturn.nameLine hreturn.forkPackage⟩ _
  have hempty : ((· != []) ∘ edited c : List Char → Bool) = (· != []) := by
    funext s
    rw [Function.comp_apply, Bool.eq_iff_iff, bne_iff_ne, bne_iff_ne, ne_eq, ne_eq,
      edited_eq_nil_iff hd]
  unfold header namedHeader header
  rw [toList_forFork, Chars.lines_map (worksBeside_edited isLineEnd_lineFeed hfeed)
    (worksBeside_edited isLineEnd_carriageReturn hreturn) (edited_eq_nil_iff hd), hlines,
    List.takeWhile_map, hempty,
    Chars.takeWhile_replaceFirstIn]
  intro p hp
  obtain ⟨a, b, rfl, hreplaced⟩ :=
    Chars.replaceFirst_of_infix (nameLine_ne_nil _) (nameLine c.forkPackage).toList hp
  rw [hreplaced, Bool.eq_iff_iff]
  simp [nameLine]

theorem header_split (h : Declares text i name) :
    header text = (header text).take i ++ (nameLine name).toList :: (header text).drop (i + 1) := by
  obtain ⟨hlt, hget⟩ := List.getElem?_eq_some_iff.1 h.line
  rw [← hget, ← List.drop_eq_getElem_cons hlt, List.take_append_drop]

theorem namedHeader_of_mentioned (h : Declares text i c.package)
    (hbefore : MentionedBefore c text i) :
    (namedHeader c text)[i]? = some (nameLine c.package).toList := by
  have hlen : ((header text).take i).length = i :=
    List.length_take_of_le (Nat.le_of_lt (List.getElem?_eq_some_iff.1 h.line).1)
  unfold namedHeader
  rw [header_split h, Chars.replaceFirstIn_append,
    if_pos (show ∃ p ∈ (header text).take i, _ from hbefore),
    List.getElem?_append_right (by simp [hlen])]
  simp [hlen]

theorem namedHeader_of_not_mentioned (h : Declares text i c.package)
    (hbefore : ¬ MentionedBefore c text i) :
    namedHeader c text = (header text).set i (nameLine c.forkPackage).toList := by
  have hlt := (List.getElem?_eq_some_iff.1 h.line).1
  have hchanged := Chars.replaceFirst_prefix (nameLine_ne_nil c.package)
    (nameLine c.forkPackage).toList []
  rw [List.append_nil, List.append_nil] at hchanged
  rw [List.set_eq_take_append_cons_drop, if_pos hlt]
  unfold namedHeader
  conv => lhs; rw [header_split h]
  rw [Chars.replaceFirstIn_append, if_neg (show ¬ ∃ p ∈ (header text).take i, _ from hbefore),
    Chars.replaceFirstIn, if_pos List.infix_rfl, hchanged]

theorem namedHeader_other (h : Declares text i c.package)
    (hsame : c.package = c.forkPackage ∨ ¬ MentionedBefore c text i) {k : Nat} (hk : k ≠ i) :
    (namedHeader c text)[k]? = (header text)[k]? := by
  rcases hsame with hsame | hbefore
  · unfold namedHeader
    rw [hsame, Chars.replaceFirstIn_self]
  · rw [namedHeader_of_not_mentioned h hbefore, List.getElem?_set_ne (Ne.symm hk)]

theorem namedHeader_line (h : Declares text i c.package) : (namedHeader c text)[i]? =
    some (nameLine (if MentionedBefore c text i then c.package else c.forkPackage)).toList := by
  by_cases hbefore : MentionedBefore c text i
  · rw [if_pos hbefore, namedHeader_of_mentioned h hbefore]
  · rw [if_neg hbefore, namedHeader_of_not_mentioned h hbefore,
      List.getElem?_set_self (List.getElem?_eq_some_iff.1 h.line).1]

theorem declares_forFork (hc : c.NamesValid) (hd : DependencyLines c.dependency)
    (h : Declares text i c.package) :
    Declares (forFork text c) i c.forkPackage ↔
      edited c (nameLine (if MentionedBefore c text i then c.package else c.forkPackage)).toList =
          (nameLine c.forkPackage).toList ∧
        ∀ (k : Nat) (line : List Char), (namedHeader c text)[k]? = some line →
            nameField <+: edited c line → k = i := by
  have hget : ∀ k : Nat, (header (forFork text c))[k]? = (namedHeader c text)[k]?.map
      (edited c) := fun k => by
    rw [header_forFork hc hd, List.getElem?_map]
  constructor
  · intro hfork
    have hline := hfork.line
    rw [hget, namedHeader_line h, Option.map_some, Option.some.injEq] at hline
    exact ⟨hline, fun k line hk hfield => hfork.only k _ (by rw [hget, hk, Option.map_some]) hfield⟩
  · rintro ⟨hline, honly⟩
    refine ⟨by rw [hget, namedHeader_line h, Option.map_some, hline], fun k line hk hfield => ?_⟩
    rw [hget, Option.map_eq_some_iff] at hk
    obtain ⟨before, hk, rfl⟩ := hk
    exact honly k before hk hfield

/-! ## Dependencies that are requirements -/

/-- What starts a requirement. -/
def requirementField : List Char := "Requires-Dist:".toList

/-- Both texts of the dependency are requirements. -/
structure Requirements (d : Dependency) : Prop where
  metadataFrom : requirementField <+: d.metadataFrom.toList
  metadataTo : requirementField <+: d.metadataTo.toList

theorem ne_nil_of_requirement {s : List Char} (h : requirementField <+: s) : s ≠ [] := by
  rintro rfl
  exact absurd (List.prefix_nil.1 h) (by decide)

/-- No requirement is part of a declaration: the only colon of a declaration comes too early. -/
theorem requirement_not_infix (hname : ':' ∉ name.toList) :
    ¬ requirementField <:+: (nameLine name).toList := by
  rintro ⟨a, b, hab⟩
  have hline : (nameLine name).toList = "Name".toList ++ ':' :: (' ' :: name.toList) := by
    simp [nameLine]
  have hfield : requirementField = "Requires-Dist".toList ++ [':'] := by decide
  have ha : ':' ∉ a := by
    have hcount := congrArg (List.count ':') hab
    have hone : requirementField.count ':' = 1 := by decide
    have hzero : "Name".toList.count ':' = 0 := by decide
    rw [hline, List.count_append, List.count_append, List.count_append, hone, hzero,
      List.count_cons_self, List.count_cons_of_ne (by decide), List.count_eq_zero.2 hname] at hcount
    exact List.count_eq_zero.1 (by omega)
  have hparts : a ++ "Requires-Dist".toList ++ ':' :: b = "Name".toList ++ ':' ::
      (' ' :: name.toList) := by
    rw [← hline, ← hab, hfield]
    simp
  have hbefore : ':' ∉ a ++ "Requires-Dist".toList := by
    rw [List.mem_append, not_or]
    exact ⟨ha, by decide⟩
  have hlength := congrArg List.length ((Chars.append_sep_inj hbefore (by decide)).1 hparts).1
  rw [List.length_append] at hlength
  have hlong : "Requires-Dist".toList.length = 13 ∧ "Name".toList.length = 4 := by decide
  omega

theorem edited_nameLine (hd : Requirements c.dependency) (hvalid : Name.isValid name = true) :
    edited c (nameLine name).toList = (nameLine name).toList := by
  have hnot : ¬ c.dependency.metadataFrom.toList <:+: (nameLine name).toList := fun h =>
    requirement_not_infix (Name.not_mem_of_isValid hvalid (by decide) (by decide))
      (hd.metadataFrom.isInfix.trans h)
  have hplus : '+' ∉ (nameLine name).toList := by
    unfold nameLine
    rw [String.toList_append, List.mem_append, not_or]
    exact ⟨by decide, Name.not_mem_of_isValid hvalid (by decide) (by decide)⟩
  unfold edited
  rw [Chars.replaceAll_eq_self (ne_nil_of_requirement hd.metadataFrom) hnot]
  exact (Version.stripFrom_of_not_plus hplus).1

theorem nameField_of_edited (hd : Requirements c.dependency) {line : List Char}
    (h : nameField <+: edited c line) : nameField <+: line := by
  have hdigit : ∀ x ∈ nameField, Text.isDecimalDigit x = false := Text.noDigit_of_all (by decide)
  unfold edited Chars.replaceAll at h
  rw [if_neg (ne_nil_of_requirement hd.metadataFrom)] at h
  refine Chars.prefix_of_prefix_replaceFrom (ne_nil_of_requirement hd.metadataTo) ?_
    (Version.prefix_of_prefix_stripFrom hdigit h)
  obtain ⟨rest, hrest⟩ := hd.metadataTo
  rw [← hrest]
  intro x hx
  obtain rfl : 'R' = x := Option.some.inj hx
  decide

/-- **The declared name.** If one line of a header declares the package and no other one starts like
a declaration, then the fork's header declares the fork in the same line exactly if the edits of the
dependency and of local versions leave the fork's name there and start no other line like a
declaration. With requirements for the texts of the dependency this means that no earlier line of
the header holds the declaration, or that the fork has the package's name. -/
theorem declares_forFork_iff (hc : c.NamesValid) (hd : DependencyLines c.dependency)
    (h : Declares text i c.package) :
    (Declares (forFork text c) i c.forkPackage ↔
      edited c (nameLine (if MentionedBefore c text i then c.package else c.forkPackage)).toList =
          (nameLine c.forkPackage).toList ∧
        ∀ (k : Nat) (line : List Char), (namedHeader c text)[k]? = some line →
          nameField <+: edited c line → k = i) ∧
    (Requirements c.dependency →
      (Declares (forFork text c) i c.forkPackage ↔ c.package = c.forkPackage ∨
        ¬ MentionedBefore c text i)) := by
  refine ⟨declares_forFork hc hd h, fun hreq => ?_⟩
  rw [declares_forFork hc hd h]
  constructor
  · rintro ⟨hline, -⟩
    by_cases hbefore : MentionedBefore c text i
    · rw [if_pos hbefore, edited_nameLine hreq hc.package, String.toList_inj] at hline
      exact Or.inl ((String.append_right_inj _).1 hline)
    · exact Or.inr hbefore
  · intro hsame
    have hname : (if MentionedBefore c text i then c.package else c.forkPackage) =
        c.forkPackage := by
      rcases hsame with hsame | hbefore
      · rw [hsame, ite_self]
      · rw [if_neg hbefore]
    refine ⟨by rw [hname, edited_nameLine hreq hc.forkPackage], fun k line hk hfield => ?_⟩
    by_contra hne
    rw [namedHeader_other h hsame hne] at hk
    exact hne (h.only k line hk (nameField_of_edited hreq hfield))

theorem declares_forFork_described : Config.NamesValid {} ∧ DependencyLines {} ∧ Requirements {} ∧
    Declares describedText 1 "pythonmonkey" ∧
    Declares (forFork describedText {}) 1 "pythonmonkey-fork" := by
  have hd : DependencyLines {} := by decide
  have hreq : Requirements {} := ⟨by decide, by decide⟩
  have h : Declares describedText 1 "pythonmonkey" := by decide +kernel
  have hfork := ((declares_forFork_iff Config.namesValid_default hd h).2 hreq).2
    (Or.inr (by decide +kernel))
  exact ⟨Config.namesValid_default, hd, hreq, h, hfork⟩

/-- Metadata that mentions the name in a line before the declaration. -/
def mentioningText : String := "X-Name: p\nName: p\n"

/-- The mention is changed, and the package stays the declared name. -/
theorem mentioned_name_stays :
    Config.letters.NamesValid ∧ DependencyLines Config.letters.dependency ∧
    ¬ nameField <:+: Config.letters.dependency.metadataFrom.toList ∧
    ¬ nameField <:+: Config.letters.dependency.metadataTo.toList ∧ Declares mentioningText 1 "p" ∧
    forFork mentioningText Config.letters = "X-Name: f\nName: p\n" ∧
    ¬ Declares (forFork mentioningText Config.letters) 1 "f" := by
  exact ⟨Config.namesValid_letters,
    by decide, by decide +kernel, by decide +kernel, by decide +kernel,
    by decide +kernel, by decide +kernel⟩

end Metadata
end Rebadge
