import Rebadge.Proofs.Name
import Rebadge.Proofs.Version.Repeated

/-!
# Labels in segments

A label may have several segments, joined by `.`, `_` or `-`. Of the three only `_` is a word
character, so what is cut of a label ends at its first dot or hyphen, and the segments from there on
stay behind the development version (`stripFrom_label_append`). A label is cut as a whole exactly if
it has neither (`stripLocalVersion_label_iff`).
-/

namespace Rebadge.Version

open Text (isWordChar)

/-! ## Labels -/

/-- Letters and digits of ASCII. -/
structure IsSegment (s : List Char) : Prop where
  ne_nil : s ≠ []
  alphanum : ∀ c ∈ s, c.isAlphanum = true

/-- Segments with a `.`, `_` or `-` between each two. -/
inductive IsLabel : List Char → Prop where
  | segment {s : List Char} (hs : IsSegment s) : IsLabel s
  | join {s t : List Char} {sep : Char} (hs : IsSegment s) (hsep : sep ∈ ['.', '_', '-'])
      (ht : IsLabel t) :
      IsLabel (s ++ sep :: t)

/-- What stays of a label: all from its first character on that is no word character. -/
def leftOf (label : String) : String := .ofList (label.toList.dropWhile isWordChar)

variable {s t y : List Char} {c : Char}

theorem IsSegment.isWord (h : IsSegment s) : IsWord s where
  ne_nil := h.ne_nil
  word := fun c hc => Text.isWordChar_of_isAlphanum (h.alphanum c hc)

theorem IsLabel.startsLabel (h : IsLabel s) (y : List Char) : StartsLabel (s ++ y) := by
  cases h with
  | segment hs => exact hs.isWord.startsLabel y
  | join hs _ _ =>
    rw [List.append_assoc]
    exact hs.isWord.startsLabel _

theorem IsLabel.char (h : IsLabel s) (hc : c ∈ s) : isWordChar c = true ∨ c = '.' ∨ c = '-' := by
  induction h with
  | segment hs => exact Or.inl (hs.isWord.word c hc)
  | join hs hsep _ ih =>
    rcases List.mem_append.1 hc with hc | hc
    · exact Or.inl (hs.isWord.word c hc)
    · rcases List.mem_cons.1 hc with rfl | hc
      · simp only [List.mem_cons, List.not_mem_nil, or_false] at hsep
        rcases hsep with rfl | rfl | rfl
        · exact Or.inr (Or.inl rfl)
        · exact Or.inl (by decide)
        · exact Or.inr (Or.inr rfl)
      · exact ih hc

theorem IsLabel.plus (h : IsLabel s) : '+' ∉ s := fun hmem => absurd (h.char hmem) (by decide)

theorem IsLabel.dropWhile_eq_nil (h : IsLabel s) :
    s.dropWhile isWordChar = [] ↔ '.' ∉ s ∧ '-' ∉ s := by
  rw [List.dropWhile_eq_nil_iff]
  constructor
  · intro hword
    exact ⟨fun hmem => absurd (hword _ hmem) (by decide),
      fun hmem => absurd (hword _ hmem) (by decide)⟩
  · rintro ⟨hdot, hhyphen⟩ c hc
    rcases h.char hc with hword | rfl | rfl
    · exact hword
    · exact absurd hc hdot
    · exact absurd hc hhyphen

/-! ## Cutting them -/

/-- **A label in segments.** Its first word characters are cut, and the rest of it stays. -/
theorem stripFrom_label_append (hs : IsDev s) (ht : IsLabel t)
    (hword : ∀ c ∈ y.head?, isWordChar c = false) (hplus : '+' ∉ y) :
    stripFrom 0 (s ++ '+' :: (t ++ y)) = s ++ (t.dropWhile isWordChar ++ y) := by
  have hrest : '+' ∉ t.dropWhile isWordChar ++ y := by
    rw [List.mem_append, not_or]
    exact ⟨fun hmem => ht.plus ((List.dropWhile_sublist isWordChar).subset hmem), hplus⟩
  rw [(stripFrom_label hs.plus ⟨[], s, hs, rfl⟩ (ht.startsLabel y)).1,
    (takeWhile_append_of_head hword t).2, (stripFrom_of_not_plus hrest).1]

/-- The text `major.minor.patch.devN`. -/
def devText (major minor patch dev : String) : String :=
  major ++ "." ++ minor ++ "." ++ patch ++ ".dev" ++ dev

variable {major minor patch dev label : String}

theorem isDev_devText (hmajor : IsNumber major.toList) (hminor : IsNumber minor.toList)
    (hpatch : IsNumber patch.toList) (hdev : IsNumber dev.toList) :
    IsDev (devText major minor patch dev).toList := by
  refine ⟨major.toList, _, hmajor,
    ⟨minor.toList, patch.toList, dev.toList, hminor, hpatch, hdev, rfl⟩, ?_⟩
  unfold devText
  simp

theorem stripLocalVersion_label {version ending : String} (hversion : IsDev version.toList)
    (hlabel : IsLabel label.toList) (hword : ∀ c ∈ ending.toList.head?, isWordChar c = false)
    (hplus : '+' ∉ ending.toList) :
    stripLocalVersion (version ++ "+" ++ label ++ ending) = version ++ leftOf label ++ ending := by
  rw [← String.toList_inj, toList_stripLocalVersion]
  have hcut := stripFrom_label_append hversion hlabel hword hplus
  simpa [leftOf] using hcut

theorem leftOf_eq_empty (hlabel : IsLabel label.toList) :
    leftOf label = "" ↔ '.' ∉ label.toList ∧ '-' ∉ label.toList := by
  rw [← hlabel.dropWhile_eq_nil, leftOf, ← String.toList_inj, String.toList_ofList]
  rfl

theorem toFork_label {package fork version ending : String} (hfork : '.' ∉ fork.toList)
    (hversion : IsDev version.toList) (hlabel : IsLabel label.toList)
    (hword : ∀ c ∈ ending.toList.head?, isWordChar c = false) (hplus : '+' ∉ ending.toList) :
    Name.toFork (package ++ "-" ++ version ++ "+" ++ label ++ ending) package fork =
      fork ++ "-" ++ version ++ leftOf label ++ ending := by
  have hname : package ++ "-" ++ version ++ "+" ++ label ++ ending =
      package ++ "-" ++ (version ++ "+" ++ label ++ ending) := by
    simp only [String.append_assoc]
  rw [hname, Name.toFork_project hfork, stripLocalVersion_label hversion hlabel hword hplus]
  simp only [String.append_assoc]

/-- **When a label is cut as a whole.** Of a label of a development version all from its first dot
or hyphen on stays, in a text and in the names of a directory and a file under the fork. So the
label is gone exactly if it has neither. -/
theorem stripLocalVersion_label_iff (hmajor : IsNumber major.toList)
    (hminor : IsNumber minor.toList) (hpatch : IsNumber patch.toList) (hdev : IsNumber dev.toList)
    (hlabel : IsLabel label.toList) (package : String) {fork : String} (hfork : '.' ∉ fork.toList) :
    (stripLocalVersion (devText major minor patch dev ++ "+" ++ label) =
      devText major minor patch dev ++ leftOf label ∧
      ∀ ending ∈ [".dist-info", ".tar.gz"],
        Name.toFork (package ++ "-" ++ devText major minor patch dev ++ "+" ++ label ++ ending)
          package fork = fork ++ "-" ++ devText major minor patch dev ++ leftOf label ++ ending) ∧
    (stripLocalVersion (devText major minor patch dev ++ "+" ++ label) =
      devText major minor patch dev ↔
      '.' ∉ label.toList ∧ '-' ∉ label.toList) ∧
    ∀ ending ∈ [".dist-info", ".tar.gz"],
      (Name.toFork (package ++ "-" ++ devText major minor patch dev ++ "+" ++ label ++ ending)
        package fork = fork ++ "-" ++ devText major minor patch dev ++ ending ↔
        '.' ∉ label.toList ∧ '-' ∉ label.toList) := by
  have hversion := isDev_devText hmajor hminor hpatch hdev
  generalize devText major minor patch dev = version at hversion ⊢
  have htext : stripLocalVersion (version ++ "+" ++ label) = version ++ leftOf label := by
    have h := stripLocalVersion_label hversion hlabel
      (show ∀ c ∈ "".toList.head?, isWordChar c = false by simp) (by simp)
    rwa [String.append_empty, String.append_empty] at h
  have hname : ∀ ending ∈ [".dist-info", ".tar.gz"],
      Name.toFork (package ++ "-" ++ version ++ "+" ++ label ++ ending) package fork =
        fork ++ "-" ++ version ++ leftOf label ++ ending := by
    intro ending hending
    have hdot : (∀ c ∈ ending.toList.head?, isWordChar c = false) ∧ '+' ∉ ending.toList := by
      simp only [List.mem_cons, List.not_mem_nil, or_false] at hending
      rcases hending with rfl | rfl
      · exact ⟨by simp; decide, by decide⟩
      · exact ⟨by simp; decide, by decide⟩
    exact toFork_label hfork hversion hlabel hdot.1 hdot.2
  refine ⟨⟨htext, hname⟩, ?_, fun ending hending => ?_⟩
  · rw [htext, ← leftOf_eq_empty hlabel]
    exact String.append_eq_left_iff
  · rw [hname ending hending, ← leftOf_eq_empty hlabel, String.append_left_inj,
      String.append_eq_left_iff]

theorem isLabel_dated : IsLabel "g1a2b3c.d20240101".toList := by
  have hfirst : IsSegment "g1a2b3c".toList := ⟨by decide, List.all_eq_true.1 (by decide)⟩
  have hlast : IsSegment "d20240101".toList := ⟨by decide, List.all_eq_true.1 (by decide)⟩
  exact .join hfirst (show '.' ∈ ['.', '_', '-'] by decide) (.segment hlast)

theorem isNumber_of_all {s : String} (hne : s.toList ≠ [])
    (h : s.toList.all Text.isDecimalDigit = true) :
    IsNumber s.toList := ⟨hne, List.all_eq_true.1 h⟩

/-- Its date stays. -/
theorem dated_label_left :
    (IsNumber "1".toList ∧ IsNumber "2".toList ∧ IsNumber "3".toList ∧ IsNumber "4".toList ∧
      IsLabel "g1a2b3c.d20240101".toList ∧ '.' ∉ "f".toList) ∧
    stripLocalVersion (devText "1" "2" "3" "4" ++ "+" ++ "g1a2b3c.d20240101") ≠
    devText "1" "2" "3" "4" ∧
    Name.toFork ("p" ++ "-" ++ devText "1" "2" "3" "4" ++ "+" ++ "g1a2b3c.d20240101" ++ ".tar.gz")
    "p" "f" ≠
      "f" ++ "-" ++ devText "1" "2" "3" "4" ++ ".tar.gz" := by
  have h1 := isNumber_of_all (s := "1") (by decide) (by decide)
  have h2 := isNumber_of_all (s := "2") (by decide) (by decide)
  have h3 := isNumber_of_all (s := "3") (by decide) (by decide)
  have h4 := isNumber_of_all (s := "4") (by decide) (by decide)
  have hfork : '.' ∉ "f".toList := by decide
  obtain ⟨-, htext, hname⟩ := stripLocalVersion_label_iff h1 h2 h3 h4 isLabel_dated "p" hfork
  refine ⟨⟨h1, h2, h3, h4, isLabel_dated, hfork⟩, ?_, ?_⟩
  · rw [Ne, htext]
    decide
  · rw [Ne, hname ".tar.gz" (by decide)]
    decide

theorem stripLocalVersion_dated :
    stripLocalVersion "1.2.3.dev4+g1a2b3c.d20240101" = "1.2.3.dev4.d20240101" ∧
      stripLocalVersion "1.2.3.dev4+g1a2b3c.d20240101" ≠ "1.2.3.dev4" := by decide

end Rebadge.Version
