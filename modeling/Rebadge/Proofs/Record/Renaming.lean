import Rebadge.Proofs.Text.Separator
import Rebadge.Proofs.Version.Local
import Rebadge.Record.Fork

/-!
# The renaming of a record

A record is renamed as one text. With valid package names the text that gives way is a run of
letters, digits and underscores before a hyphen, so neither it nor a local version spans a separator
such as a comma, a slash, a quote or a line end: the renaming works on the parts between separators
(`renamed_append`).
-/

namespace Rebadge.Name

/-- Whether a text is a package name: letters, digits and separators, with no separator at either
end. -/
def isValid (name : String) : Bool :=
  name.toList.all (fun c => c.isAlphanum || isSeparator c) &&
    name.toList.head?.any Char.isAlphanum && name.toList.getLast?.any Char.isAlphanum

theorem not_mem_of_isValid {name : String} (h : isValid name = true) {x : Char}
    (hx : x.isAlphanum = false) (hsep : isSeparator x = false) : x ∉ name.toList := by
  unfold isValid at h
  simp only [Bool.and_eq_true, List.all_eq_true] at h
  intro hmem
  simpa [hx, hsep] using h.1.1 x hmem

/-- The characters of the normal form of a package name. -/
def isNormalChar (c : Char) : Bool := c.isAlphanum || c == '_'

theorem isNormalChar_of_mem_joinRuns {s : List Char}
    (h : s.all fun c => c.isAlphanum || isSeparator c) {inRun : Bool} {c : Char}
    (hc : c ∈ joinRuns inRun s) : isNormalChar c = true := by
  induction s generalizing inRun with
  | nil => exact absurd hc (by simp [joinRuns])
  | cons d s ih =>
    rw [List.all_cons, Bool.and_eq_true] at h
    rw [joinRuns] at hc
    split at hc
    · split at hc
      · exact ih h.2 hc
      · rcases List.mem_cons.1 hc with rfl | hc
        · decide
        · exact ih h.2 hc
    · next hd =>
      rcases List.mem_cons.1 hc with rfl | hc
      · simpa [isNormalChar, hd] using Or.inl h.1
      · exact ih h.2 hc

theorem joinRuns_ne_nil {s : List Char} (h : s.head?.any Char.isAlphanum = true) :
    joinRuns false s ≠ [] := by
  cases s with
  | nil => simp at h
  | cons c s =>
    rw [joinRuns]
    split <;> simp

theorem isNormalChar_of_mem_normalize {name : String} (h : isValid name = true) {c : Char}
    (hc : c ∈ (normalize name).toList) : isNormalChar c = true := by
  unfold isValid at h
  simp only [Bool.and_eq_true] at h
  unfold normalize at hc
  rw [String.toList_ofList] at hc
  exact isNormalChar_of_mem_joinRuns h.1.1 hc

theorem normalize_ne_nil {name : String} (h : isValid name = true) :
    (normalize name).toList ≠ [] := by
  unfold isValid at h
  simp only [Bool.and_eq_true] at h
  unfold normalize
  rw [String.toList_ofList]
  exact joinRuns_ne_nil h.1.2

theorem isWordChar_of_isNormalChar {c : Char} (h : isNormalChar c = true) :
    Text.isWordChar c = true := by
  unfold isNormalChar at h
  rw [Bool.or_eq_true] at h
  have hlt : c.toNat < 128 := by
    rcases h with h | h
    · exact Text.toNat_lt_of_isAlphanum h
    · rw [beq_iff_eq.1 h]
      decide
  simpa [Text.isWordChar, hlt] using h

end Rebadge.Name

namespace Rebadge

/-- The package and its fork have valid names. -/
structure Config.NamesValid (c : Config) : Prop where
  package : Name.isValid c.package = true
  forkPackage : Name.isValid c.forkPackage = true

theorem Config.namesValid_default : Config.NamesValid {} := ⟨by decide, by decide⟩

/-- The fork `f` of the package `p`. -/
def Config.letters : Config := { package := "p", forkPackage := "f" }

theorem Config.namesValid_letters : Config.letters.NamesValid := ⟨by decide, by decide⟩

namespace Record

/-! ## The text that gives way -/

/-- The name of the package as it starts the names of artifacts. -/
def packagePrefix (c : Config) : List Char := (c.distName ++ "-").toList

/-- The name of the fork as it starts the names of artifacts. -/
def forkPrefix (c : Config) : List Char := (c.forkDistName ++ "-").toList

/-- The renaming on lists of characters. -/
def renamed (c : Config) (s : List Char) : List Char :=
  Version.stripFrom 0 (Chars.replaceAll (packagePrefix c) (forkPrefix c) s)

theorem renameAll_eq (c : Config) (text : String) :
    renameAll c text = .ofList (renamed c text.toList) := by
  unfold renameAll renamed Version.stripLocalVersion Text.replaceAll
  rw [String.toList_ofList]
  rfl

theorem toList_renameAll (c : Config) (text : String) :
    (renameAll c text).toList = renamed c text.toList := by
  rw [renameAll_eq, String.toList_ofList]

theorem packagePrefix_eq (c : Config) : packagePrefix c = c.distName.toList ++ ['-'] := by
  simp [packagePrefix]

theorem forkPrefix_eq (c : Config) : forkPrefix c = c.forkDistName.toList ++ ['-'] := by
  simp [forkPrefix]

theorem packagePrefix_ne_nil (c : Config) : packagePrefix c ≠ [] := by
  simp [packagePrefix_eq]

theorem forkPrefix_ne_nil (c : Config) : forkPrefix c ≠ [] := by
  simp [forkPrefix_eq]

theorem hyphen_mem_packagePrefix (c : Config) : '-' ∈ packagePrefix c := by
  simp [packagePrefix_eq]

/-- What stands between the parts that are renamed by themselves. -/
def isBoundary (s : Char) : Bool := !Text.isWordChar s && s != '.' && s != '+' && s != '-'

theorem isBoundary_iff {s : Char} :
    isBoundary s = true ↔ Text.isWordChar s = false ∧ s ≠ '.' ∧ s ≠ '+' ∧ s ≠ '-' := by
  simp [isBoundary, and_assoc]

variable {c : Config}

theorem mem_packagePrefix (hc : c.NamesValid) {x : Char} (hx : x ∈ packagePrefix c) :
    isBoundary x = false := by
  rw [packagePrefix_eq, List.mem_append, List.mem_singleton] at hx
  rcases hx with hx | rfl
  · simp [isBoundary,
      Name.isWordChar_of_isNormalChar (Name.isNormalChar_of_mem_normalize hc.package hx)]
  · decide

theorem mem_forkPrefix (hc : c.NamesValid) {x : Char} (hx : x ∈ forkPrefix c) :
    isBoundary x = false := by
  rw [forkPrefix_eq, List.mem_append, List.mem_singleton] at hx
  rcases hx with hx | rfl
  · simp [isBoundary,
      Name.isWordChar_of_isNormalChar (Name.isNormalChar_of_mem_normalize hc.forkPackage hx)]
  · decide

/-! ## The renaming beside a separator -/

/-- What the name of the package does not hold and no version goes across keeps the texts beside it
apart. -/
theorem renamed_append_sep {s : Char} (hnot : s ∉ packagePrefix c) (hs : isBoundary s = true)
    (a b : List Char) : renamed c (a ++ s :: b) = renamed c a ++ s :: renamed c b := by
  obtain ⟨hword, hdot, hplus, -⟩ := isBoundary_iff.1 hs
  unfold renamed
  rw [Chars.replaceAll_append_sep hnot,
    Version.stripFrom_append_separator hword hdot hplus]

/-- **Renaming beside a boundary.** The texts on both sides of a boundary are renamed by
themselves. -/
theorem renamed_append (hc : c.NamesValid) {s : Char} (hs : isBoundary s = true) (a b : List Char) :
    renamed c (a ++ s :: b) = renamed c a ++ s :: renamed c b := by
  refine renamed_append_sep (fun h => ?_) hs a b
  rw [mem_packagePrefix hc h] at hs
  exact absurd hs (by simp)

theorem renamed_eq_nil_iff (c : Config) {s : List Char} : renamed c s = [] ↔ s = [] := by
  unfold renamed
  rw [Version.stripFrom_eq_nil_iff, Chars.replaceAll_eq_nil_iff (packagePrefix_ne_nil c)
    (forkPrefix_ne_nil c)]

theorem renamed_nil (c : Config) : renamed c [] = [] := (renamed_eq_nil_iff c).2 rfl

theorem renamed_ne_nil (c : Config) {s : List Char} (h : s ≠ []) : renamed c s ≠ [] :=
  (renamed_eq_nil_iff c).not.2 h

theorem mem_of_mem_renamed (hc : c.NamesValid) {x : Char} (hx : isBoundary x = true) {s : List Char}
    (h : x ∈ renamed c s) : x ∈ s := by
  rcases Chars.mem_replaceAll (Version.mem_of_mem_stripFrom h) with h | h
  · exact h
  · rw [mem_forkPrefix hc h] at hx
    exact absurd hx (by simp)

theorem renamed_eq_self {s : List Char} (hhyphen : '-' ∉ s) (hdot : '.' ∉ s) : renamed c s = s := by
  unfold renamed
  rw [Chars.replaceAll_eq_self_of_not_mem (hyphen_mem_packagePrefix c) hhyphen,
    Version.stripFrom_eq_self hdot]

theorem renamed_join (hc : c.NamesValid) {s : Char} (hs : isBoundary s = true)
    {ps : List (List Char)} (h : ps ≠ []) :
    renamed c (Chars.join s ps) = Chars.join s (ps.map (renamed c)) :=
  Chars.map_join (renamed_append hc hs) h

theorem split_renamed (hc : c.NamesValid) {s : Char} (hs : isBoundary s = true) (t : List Char) :
    Chars.split s (renamed c t) = (Chars.split s t).map (renamed c) :=
  Chars.split_map (renamed_append hc hs) (fun _ hp h => hp (mem_of_mem_renamed hc hs h)) t

end Record
end Rebadge
