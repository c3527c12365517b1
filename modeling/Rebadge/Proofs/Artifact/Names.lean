import Rebadge.Patch
import Rebadge.Proofs.Name
import Rebadge.Proofs.Version.Repeated
import Rebadge.Proofs.Wheel.DistInfo

/-!
# The names of a release

A release has four names: that of its wheel, that of the directory for metadata in it, that of its
source tarball and that of the directory in it. Each starts with project and version and goes on
with what no local version reaches into, so the renaming changes project and version alone, and in
all four alike (`renamed_release`). What a name ends with, and with it the kind of the artifact, is
the same before and after (`ofFilename_renamed`).
-/

namespace Rebadge

namespace Version

variable {s y : List Char}

/-! ## Suffixes -/

theorem IsDev.last_digit (h : IsDev s) :
    ∃ front last, s = front ++ [last] ∧ Text.isDecimalDigit last = true := by
  obtain ⟨major, _, -, ⟨minor, patch, dev, -, -, hdev, rfl⟩, rfl⟩ := h
  rcases List.eq_nil_or_concat dev with rfl | ⟨front, last, rfl⟩
  · exact absurd rfl hdev.ne_nil
  · refine ⟨major ++ ('.' :: minor ++ '.' :: patch ++ '.' :: 'd' :: 'e' :: 'v' :: front),
      last, by simp, ?_⟩
    exact hdev.digit last (by simp)

/-- A suffix without digits does not reach into a development version before it. -/
theorem suffix_of_isDev_append (h : IsDev s) (hy : ∀ c ∈ y, Text.isDecimalDigit c = false)
    {r : List Char} (hsuffix : y <:+ s ++ r) : y <:+ r := by
  rcases List.suffix_or_suffix_of_suffix hsuffix (List.suffix_append s r) with hr | ⟨x, rfl⟩
  · exact hr
  · obtain ⟨t, ht⟩ := hsuffix
    rw [← List.append_assoc, List.append_cancel_right_eq] at ht
    obtain ⟨front, last, rfl, hdigit⟩ := h.last_digit
    rcases List.suffix_concat_iff.1 ⟨t, ht⟩ with rfl | ⟨x', rfl, -⟩
    · exact List.suffix_rfl
    · rw [hy last (by simp)] at hdigit
      exact absurd hdigit (by simp)

/-- A text that ends every local version: none starts in it, and neither a digit nor a `d`
occurs. -/
structure IsEnding (y : List Char) : Prop extends Ends y where
  notD : 'd' ∉ y
  noDigit : ∀ c ∈ y, Text.isDecimalDigit c = false

theorem IsEnding.stripFrom (h : IsEnding y) : stripFrom 0 y = y :=
  stripFrom_eq_self_of_not_mem fun hmem => h.notD (mem_of_mem_stripFrom hmem)

/-- **The suffix** of a text is the same after the cut. -/
theorem suffix_stripFrom (h : IsEnding y) (s : List Char) :
    y <:+ Version.stripFrom 0 s ↔ y <:+ s := by
  constructor
  · induction s using cut_induction with
    | nil => exact id
    | keep c s hm ih =>
      intro hsuffix
      rw [stripFrom_none hm] at hsuffix
      rcases List.suffix_cons_iff.1 hsuffix with rfl | hsuffix
      · have hself := stripFrom_eq_self_of_not_mem (s := c :: s)
          (by rw [stripFrom_none hm]; exact h.notD)
        rw [stripFrom_none hm] at hself
        exact hself ▸ List.suffix_rfl
      · exact (ih hsuffix).trans (List.suffix_cons c s)
    | cut c s m hm ih =>
      intro hsuffix
      rw [stripFrom_some hm] at hsuffix
      have hrest := suffix_of_isDev_append (isDev_of_localVersion? hm) h.noDigit hsuffix
      exact ((ih hrest).trans (List.drop_suffix _ s)).trans (List.suffix_cons c s)
  · rintro ⟨front, rfl⟩
    rw [stripFrom_append h.toEnds, h.stripFrom]
    exact List.suffix_append _ y

end Version

namespace Artifact

/-! ## The names -/

/-- The directory in a source tree. -/
def rootName (project version : String) : String := project ++ "-" ++ version

/-- The directory for metadata. -/
def distInfoName (project version : String) : String := rootName project version ++ Wheel.dirSuffix

/-- The source tarball. -/
def sdistName (project version : String) : String := rootName project version ++ Sdist.suffix

/-- What the names of wheels end with. -/
def wheelSuffix : String := ".whl"

/-- The wheel, whose tags say which interpreters and systems it is for. -/
def wheelName (project version tags : String) : String :=
  rootName project version ++ "-" ++ tags ++ wheelSuffix

/-- The part of a name that says which project it belongs to: what precedes the first dash. -/
def projectPart (name : String) : String := .ofList (name.toList.takeWhile (· != '-'))

theorem projectPart_rootName {project : String} (h : '-' ∉ project.toList) (version more : String) :
    projectPart (rootName project version ++ more) = project := by
  have hlist : (rootName project version ++ more).toList = project.toList ++ '-' ::
      (version ++ more).toList := by
    simp [rootName]
  have hall : ∀ c ∈ project.toList, (c != '-') = true := by
    intro c hc
    rw [bne_iff_ne]
    rintro rfl
    exact h hc
  unfold projectPart
  rw [hlist, List.takeWhile_append_of_pos hall, List.takeWhile_cons_of_neg (by simp),
    List.append_nil, String.ofList_toList]

/-! ## The names under the fork -/

variable {c : Config}

theorem renamed_rootName (c : Config) (version : String) :
    c.renamed (rootName c.distName version) =
      rootName c.forkDistName (Version.stripLocalVersion version) :=
  renamed_project c version

theorem renamed_rootName_append (c : Config) (version : String) {suffix : String}
    (h : Version.Ends suffix.toList) (hself : Version.stripLocalVersion suffix = suffix) :
    c.renamed (rootName c.distName version ++ suffix) =
      rootName c.forkDistName (Version.stripLocalVersion version) ++ suffix := by
  unfold rootName
  rw [String.append_assoc, renamed_project, Version.stripLocalVersion_append h hself,
    ← String.append_assoc]

theorem isEnding_wheelSuffix : Version.IsEnding wheelSuffix.toList where
  toEnds := Version.ends_of_dot (b := "whl".toList)
    (fun c hc => by obtain rfl := Option.mem_some.1 hc; rfl) (by decide)
  notD := by decide
  noDigit := Text.noDigit_of_all (by decide)

theorem isEnding_sdistSuffix : Version.IsEnding Sdist.suffix.toList where
  toEnds := Version.ends_of_dot (b := "tar.gz".toList)
    (fun c hc => by obtain rfl := Option.mem_some.1 hc; rfl) (by decide)
  notD := by decide
  noDigit := Text.noDigit_of_all (by decide)

theorem renamed_distInfoName (c : Config) (version : String) :
    c.renamed (distInfoName c.distName version) = distInfoName c.forkDistName
    (Version.stripLocalVersion version) :=
  renamed_rootName_append c version Wheel.ends_dirSuffix (by decide)

theorem renamed_sdistName (c : Config) (version : String) :
    c.renamed (sdistName c.distName version) =
      sdistName c.forkDistName (Version.stripLocalVersion version) :=
  renamed_rootName_append c version isEnding_sdistSuffix.toEnds (by decide)

theorem renamed_wheelName (c : Config) (version tags : String) :
    c.renamed (wheelName c.distName version tags) =
    wheelName c.forkDistName (Version.stripLocalVersion version)
    (Version.stripLocalVersion tags) := by
  have hassoc : wheelName c.distName version tags = c.distName ++ "-" ++
      (version ++ "-" ++ (tags ++ wheelSuffix)) := by
    simp only [wheelName, rootName, String.append_assoc]
  rw [hassoc, renamed_project, Version.stripLocalVersion_append_dash,
    Version.stripLocalVersion_append isEnding_wheelSuffix.toEnds (by decide)]
  simp only [wheelName, rootName, String.append_assoc]

theorem stripSuffix?_sdistName (project version : String) :
    Text.stripSuffix? Sdist.suffix (sdistName project version) =
      some (rootName project version) := by
  unfold Text.stripSuffix? Chars.stripSuffix? sdistName
  rw [String.toList_append, List.reverse_append, List.isPrefixOf?_eq_some_iff_append_eq.2 rfl,
    Option.map_some, Option.map_some, List.reverse_reverse, String.ofList_toList]

/-! ## Kinds -/

/-- What follows a dash decides whether a text has a suffix without dashes. -/
theorem suffix_append_dash {y : List Char} (hy : '-' ∉ y) (a b : List Char) :
    y <:+ a ++ '-' :: b ↔ y <:+ b := by
  constructor
  · intro h
    induction a with
    | nil =>
      rcases List.suffix_cons_iff.1 h with rfl | h
      · exact absurd List.mem_cons_self hy
      · exact h
    | cons c a ih =>
      rcases List.suffix_cons_iff.1 h with rfl | h
      · exact absurd (by simp) hy
      · exact ih h
  · intro h
    exact h.trans ((List.suffix_cons '-' b).trans (List.suffix_append a _))

theorem hasSuffix_renamed (c : Config) (name : String) {suffix : String}
    (h : Version.IsEnding suffix.toList) (hdash : '-' ∉ suffix.toList) :
    Text.hasSuffix (c.renamed name) suffix = Text.hasSuffix name suffix := by
  obtain ⟨full, heq, hfull⟩ := renamed_eq c name
  unfold Text.hasSuffix
  rw [Bool.eq_iff_iff, List.isSuffixOf_iff_suffix, List.isSuffixOf_iff_suffix, heq,
    Version.toList_stripLocalVersion, Version.suffix_stripFrom h]
  rcases hfull with rfl | ⟨rest, hname, hfull⟩
  · exact Iff.rfl
  · rw [hfull, ← hname, String.toList_append, List.append_assoc, List.append_assoc]
    exact (suffix_append_dash hdash _ rest).trans (suffix_append_dash hdash _ rest).symm

/-- **The kind** of an artifact is the same under the fork. -/
theorem ofFilename_renamed (c : Config) (name : String) :
    ArtifactKind.ofFilename (c.renamed name) = ArtifactKind.ofFilename name := by
  have hwheel : Text.hasSuffix (c.renamed name) ".whl" = _ :=
    hasSuffix_renamed c name isEnding_wheelSuffix (by decide)
  have hsdist : Text.hasSuffix (c.renamed name) ".tar.gz" = _ :=
    hasSuffix_renamed c name isEnding_sdistSuffix (by decide)
  unfold ArtifactKind.ofFilename
  rw [hwheel, hsdist]

/-- **The names of a release** agree under the fork: all four carry the name of the fork, which the
first dash ends, and the version without its local version. The tarball is named like the directory
in it, and every artifact keeps its kind. -/
theorem renamed_release (c : Config) (version tags : String) :
    let fork := c.forkDistName
    let bare := Version.stripLocalVersion version
    c.renamed (rootName c.distName version) = rootName fork bare ∧
      c.renamed (distInfoName c.distName version) = distInfoName fork bare ∧
      c.renamed (sdistName c.distName version) = sdistName fork bare ∧
      c.renamed (wheelName c.distName version tags) =
        wheelName fork bare (Version.stripLocalVersion tags) ∧
      Text.stripSuffix? Sdist.suffix (c.renamed (sdistName c.distName version)) =
        some (c.renamed (rootName c.distName version)) ∧
      (∀ name ∈ [rootName c.distName version, distInfoName c.distName version,
        sdistName c.distName version, wheelName c.distName version tags],
        projectPart (c.renamed name) = fork) ∧
      ∀ filename, ArtifactKind.ofFilename (c.renamed filename) =
          ArtifactKind.ofFilename filename := by
  have hpart := projectPart_rootName (dash_not_mem_forkDistName c)
    (Version.stripLocalVersion version)
  refine ⟨renamed_rootName c version, renamed_distInfoName c version, renamed_sdistName c version,
    renamed_wheelName c version tags, ?_, ?_, ofFilename_renamed c⟩
  · rw [renamed_sdistName, renamed_rootName, stripSuffix?_sdistName]
  · intro name hname
    simp only [List.mem_cons, List.not_mem_nil, or_false] at hname
    rcases hname with rfl | rfl | rfl | rfl
    · rw [renamed_rootName, ← String.append_empty (s := rootName _ _), hpart]
    · rw [renamed_distInfoName, distInfoName, hpart]
    · rw [renamed_sdistName, sdistName, hpart]
    · rw [renamed_wheelName, wheelName, String.append_assoc, String.append_assoc, hpart]

end Artifact
end Rebadge
