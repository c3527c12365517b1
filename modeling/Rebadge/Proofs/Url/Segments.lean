import Mathlib.Tactic.SplitIfs
import Rebadge.Proofs.Except
import Rebadge.Proofs.Path
import Rebadge.Url.Parser

/-!
# Segments of paths

However a URL is read, the segments of its path hold no slash, and none of them is a dot or two:
slashes end a segment, the encoding writes none, and the dots are taken as steps
(`isSegment_segmentsFrom`). A path that is taken over from the base has such segments already. So
the last segment of a URL is a file name, unless it is empty (`Parsed.isPlain`).
-/

namespace Rebadge.Url

/-- A segment of a path that was read. It may be empty. -/
structure IsSegment (s : String) : Prop where
  slash : '/' ∉ s.toList
  ne_current : s ≠ "."
  ne_parent : s ≠ ".."

theorem isSegment_of_undotted {s : String} (hslash : '/' ∉ s.toList) (hdouble : ¬ isDoubleDot s)
    (hsingle : ¬ isSingleDot s) : IsSegment s where
  slash := hslash
  ne_current := by
    rintro rfl
    exact hsingle (by decide)
  ne_parent := by
    rintro rfl
    exact hdouble (by decide)

theorem isSegment_empty : IsSegment "" := ⟨by simp, by decide, by decide⟩

/-! ## Encoding -/

theorem upperHexDigit_ne_slash {n : Nat} (h : n < 16) : upperHexDigit n ≠ '/' := by
  have hall : ∀ n < 16, upperHexDigit n ≠ '/' := by decide
  exact hall n h

theorem slash_not_mem_encode (set : Char → Bool) {s : List Char} (h : '/' ∉ s) :
    '/' ∉ (encode set s).toList := by
  unfold encode
  rw [String.toList_ofList, List.mem_flatMap]
  rintro ⟨c, hc, hslash⟩
  unfold encodeChar at hslash
  split at hslash
  · obtain ⟨b, -, hb⟩ := List.mem_flatMap.1 hslash
    have hhigh : b.toNat / 16 < 16 := by
      have := b.toNat_lt
      omega
    have hlow : b.toNat % 16 < 16 := Nat.mod_lt _ (by decide)
    simp only [encodeByte, List.mem_cons, List.not_mem_nil, or_false] at hb
    rcases hb with hb | hb | hb
    · exact absurd hb (by decide)
    · exact upperHexDigit_ne_slash hhigh hb.symm
    · exact upperHexDigit_ne_slash hlow hb.symm
  · rw [List.mem_singleton] at hslash
    exact h (hslash ▸ hc)

/-! ## Reading segments -/

variable {parts done : List String} {scheme segment : String} {open_ s : List Char}
  {special file more : Bool}

theorem shorten_subset (done : List String) : shorten done ⊆ done := by
  unfold shorten
  split
  · split
    · exact List.Subset.refl _
    · exact List.dropLast_subset _
  · exact List.Subset.refl _

theorem isSegment_drive {segment : List Char} (h : isDriveLetter segment) :
    IsSegment (.ofList (segment.take 1 ++ [':'])) := by
  unfold isDriveLetter at h
  split at h
  · next c d =>
    have hslash : c ≠ '/' := by
      rintro rfl
      simp at h
    constructor
    · simp [hslash.symm]
    · simp [← String.toList_inj]
    · simp [← String.toList_inj]
  · exact absurd h (by simp)

theorem isSegment_addSegment (hdone : ∀ p ∈ done, IsSegment p) (hsegment : '/' ∉ segment.toList) :
    ∀ p ∈ addSegment file done segment more, IsSegment p := by
  have hempty : ∀ {ps : List String}, (∀ p ∈ ps, IsSegment p) → ∀ p ∈ ps ++ [""], IsSegment p := by
    intro ps hps
    rw [List.forall_mem_append, List.forall_mem_singleton]
    exact ⟨hps, isSegment_empty⟩
  have hshorten : ∀ p ∈ shorten done, IsSegment p := fun p hp => hdone p (shorten_subset done hp)
  unfold addSegment
  split_ifs with hdouble hmore hsingle hmore hdrive
  · exact hshorten
  · exact hempty hshorten
  · exact hdone
  · exact hempty hdone
  · rw [List.forall_mem_singleton]
    simp only [Bool.and_eq_true] at hdrive
    exact isSegment_drive hdrive.2
  · rw [List.forall_mem_append, List.forall_mem_singleton]
    exact ⟨hdone, isSegment_of_undotted hsegment hdouble hsingle⟩

/-- **The segments of a path text**: each slash ends one. -/
theorem isSegment_segmentsFrom (hdone : ∀ p ∈ done, IsSegment p) (hopen : '/' ∉ open_) :
    ∀ p ∈ segmentsFrom special file done open_ s, IsSegment p := by
  induction s generalizing done open_ with
  | nil => exact isSegment_addSegment hdone (slash_not_mem_encode _ hopen)
  | cons c s ih =>
    rw [segmentsFrom]
    split_ifs with hc
    · exact ih (isSegment_addSegment hdone (slash_not_mem_encode _ hopen)) List.not_mem_nil
    · refine ih hdone ?_
      rw [List.mem_append, List.mem_singleton, not_or]
      refine ⟨hopen, ?_⟩
      rintro rfl
      exact hc (by simp [isSlash])

theorem isSegment_trimFile (h : ∀ p ∈ parts, IsSegment p) : ∀ p ∈ trimFile parts, IsSegment p := by
  unfold trimFile
  dsimp only
  split_ifs
  · rw [List.forall_mem_singleton]
    exact isSegment_empty
  · exact fun p hp => h p ((List.dropWhile_suffix _).subset hp)

theorem isSegment_pathFrom (hdone : ∀ p ∈ done, IsSegment p) :
    ∀ p ∈ pathFrom scheme done s, IsSegment p := by
  unfold pathFrom
  dsimp only
  split_ifs
  · exact isSegment_trimFile (isSegment_segmentsFrom hdone List.not_mem_nil)
  · exact isSegment_segmentsFrom hdone List.not_mem_nil

theorem isSegment_pathAfterAuthority : ∀ p ∈ pathAfterAuthority scheme s, IsSegment p := by
  unfold pathAfterAuthority
  split
  · split_ifs
    · rw [List.forall_mem_singleton]
      exact isSegment_empty
    · exact List.forall_mem_nil _
  · exact isSegment_pathFrom (List.forall_mem_nil _)

/-! ## Reading URLs -/

/-- The path of the URL consists of segments, if it is structured. -/
def Tidy (u : Url) : Prop := ∀ p ∈ segmentsOf u, IsSegment p

variable {u b : Url} {base : Option Url} {rest : List Char}

theorem tidy_segments {scheme : String} {authority : Option Authority}
    {query fragment : Option String} (h : ∀ p ∈ parts, IsSegment p) :
    Tidy ⟨scheme, authority, .segments parts, query, fragment⟩ := h

@[simp] theorem tidy_withRest : Tidy (withRest u rest) ↔ Tidy u := by
  unfold withRest
  split <;> rfl

/-- All that the computation can return satisfies `P`. -/
def Returns (P : Url → Prop) (x : Except Fault Url) : Prop := ∀ u, x = .ok u → P u

variable {P : Url → Prop} {α : Type}

theorem returns_ok (h : P u) : Returns P (.ok u) := fun _ hu => Except.ok.inj hu ▸ h

theorem returns_error {e : Fault} : Returns P (.error e) := fun _ hu => absurd hu (by simp)

theorem Returns.bind {x : Except Fault α} {f : α → Except Fault Url} (h : ∀ a, Returns P (f a)) :
    Returns P (x >>= f) := by
  intro u hu
  obtain ⟨a, -, ha⟩ := except_bind_ok.1 hu
  exact h a u ha

theorem Returns.ite {c : Prop} [Decidable c] {x y : Except Fault Url}
    (hx : Returns P x) (hy : Returns P y) : Returns P (if c then x else y) := by
  split_ifs
  · exact hx
  · exact hy

theorem Returns.unless {c : Prop} [Decidable c] {e : Fault} {f : α → Except Fault Url}
    {x : Except Fault Url} (h : Returns P x) :
    Returns P (if c then (throw e : Except Fault α) >>= f else x) :=
  .ite returns_error h

theorem afterSlashes_tidy : Returns Tidy (afterSlashes scheme s) := by
  have hreturn : ∀ {authority path rest},
      Returns Tidy (.ok (withRest ⟨scheme, authority, .segments (pathAfterAuthority scheme path),
        none, none⟩ rest)) :=
    returns_ok (tidy_withRest.2 isSegment_pathAfterAuthority)
  unfold afterSlashes
  dsimp only
  refine .unless <| .unless <| .bind fun host => .unless ?_
  split
  · exact .bind fun portAndRest => .unless hreturn
  · exact .unless hreturn

theorem fileUrl_tidy {host : Host} (hdone : ∀ p ∈ done, IsSegment p) :
    Returns Tidy (.ok (withRest (fileUrl host (pathFrom "file" done s)) rest)) :=
  returns_ok (tidy_withRest.2 (tidy_segments (isSegment_pathFrom hdone)))

theorem fileAfterSlashes_tidy : Returns Tidy (fileAfterSlashes s) := by
  have hnone : ∀ p ∈ ([] : List String), IsSegment p := List.forall_mem_nil _
  unfold fileAfterSlashes
  refine .ite (fileUrl_tidy hnone) <| .bind fun host => .ite (fileUrl_tidy hnone) ?_
  exact returns_ok (tidy_withRest.2
    (tidy_segments (isSegment_trimFile (isSegment_segmentsFrom hnone List.not_mem_nil))))

theorem Tidy.withFragment (h : b.Tidy) (fragment : Option String) : Tidy { b with fragment } := h

theorem fromRoot_tidy (hbase : ∀ b ∈ base, b.Tidy) : Returns Tidy (fileFrom.fromRoot base s) := by
  have hnone : ∀ p ∈ ([] : List String), IsSegment p := List.forall_mem_nil _
  unfold fileFrom.fromRoot
  dsimp only
  split
  · exact fileUrl_tidy hnone
  · next b hb =>
    have htidy : b.Tidy := hbase b (by split_ifs at hb; exact hb)
    split
    · next first hfirst =>
      refine .ite (fileUrl_tidy ?_) (fileUrl_tidy hnone)
      rw [List.forall_mem_singleton]
      exact htidy first (List.mem_of_head? hfirst)
    · exact fileUrl_tidy hnone

theorem relative_tidy (hbase : ∀ b ∈ base, b.Tidy) (path rest : List Char → List Char) :
    Returns Tidy (fileFrom.relative base s path rest) := by
  have hnone : ∀ p ∈ ([] : List String), IsSegment p := List.forall_mem_nil _
  unfold fileFrom.relative
  split
  · exact fileUrl_tidy hnone
  · next b =>
    have htidy : b.Tidy := hbase b rfl
    split
    · exact returns_ok (htidy.withFragment none)
    · exact returns_ok (tidy_withRest.2 htidy)
    · exact returns_ok (htidy.withFragment _)
    · refine .ite (fileUrl_tidy hnone) <|
        returns_ok (tidy_withRest.2 (tidy_segments (isSegment_pathFrom ?_)))
      -- the base's segments, with or without the last one
      split
      · split_ifs
        · exact htidy
        · exact fun p hp => htidy p (List.dropLast_subset _ hp)
      · exact htidy

theorem fileFrom_tidy (hbase : ∀ b ∈ base, b.Tidy) : Returns Tidy (fileFrom base s) := by
  unfold fileFrom
  dsimp only
  split
  · exact .ite fileAfterSlashes_tidy <| .ite (fromRoot_tidy hbase) (relative_tidy hbase _ _)
  · exact .ite (fromRoot_tidy hbase) (relative_tidy hbase _ _)
  · exact relative_tidy hbase _ _

theorem relativeTo_tidy (h : b.Tidy) : Returns Tidy (relativeTo b s) := by
  unfold relativeTo
  dsimp only
  split
  · exact returns_ok (h.withFragment none)
  · exact returns_ok (tidy_withRest.2 h)
  · exact returns_ok (h.withFragment _)
  · refine .ite (.ite ?_ ?_) ?_
    · split <;> exact afterSlashes_tidy
    · exact returns_ok (tidy_withRest.2
        (tidy_segments (isSegment_pathFrom (List.forall_mem_nil _))))
    · refine returns_ok (tidy_withRest.2 (tidy_segments (isSegment_pathFrom ?_)))
      exact fun p hp => h p (List.dropLast_subset _ hp)

theorem afterScheme_tidy (hbase : ∀ b ∈ base, b.Tidy) :
    Returns Tidy (afterScheme base scheme s) := by
  unfold afterScheme
  dsimp only
  refine .ite (fileFrom_tidy fun b hb => hbase b (Option.filter_eq_some_iff.1 hb).1) <| .ite ?_ ?_
  · split
    · exact .ite (relativeTo_tidy (hbase _ rfl)) afterSlashes_tidy
    · exact afterSlashes_tidy
  · split
    · exact afterSlashes_tidy
    · exact returns_ok (tidy_withRest.2
        (tidy_segments (isSegment_pathFrom (List.forall_mem_nil _))))
    · exact returns_ok (tidy_withRest.2 (List.forall_mem_nil _))

/-- **The segments of a URL** that was read against a base with such segments, or without a base. -/
theorem parseWith_tidy (hbase : ∀ b ∈ base, b.Tidy) (text : String) :
    Returns Tidy (parseWith base text) := by
  unfold parseWith
  dsimp only
  split
  · exact afterScheme_tidy hbase
  · split
    · exact returns_error
    · next b =>
      have htidy : b.Tidy := hbase b rfl
      split
      · exact returns_ok (htidy.withFragment _)
      · split
        · exact returns_error
        · exact .ite (fileFrom_tidy hbase) (relativeTo_tidy htidy)

/-- A URL that was read from a text, maybe against another one that was. -/
inductive Parsed : Url → Prop where
  | alone {text : String} {u : Url} (h : parse text = .ok u) : Parsed u
  | against {base u : Url} {reference : String} (hbase : Parsed base)
    (h : base.resolve reference = .ok u) : Parsed u

theorem Parsed.tidy (h : u.Parsed) : u.Tidy := by
  induction h with
  | alone h => exact parseWith_tidy (by simp) _ _ h
  | @against base u reference _ h ih =>
    refine parseWith_tidy ?_ _ _ h
    rintro b hb
    obtain rfl : base = b := by simpa using hb
    exact ih

/-- **The last segment of a URL** is a file name, unless it is empty. -/
theorem Parsed.isPlain {name : String} (h : u.Parsed) (hlast : u.lastSegment? = some name)
    (hne : name ≠ "") : Rebadge.Path.IsPlain name := by
  have hmem : name ∈ segmentsOf u := by
    unfold lastSegment? at hlast
    unfold segmentsOf
    split at hlast
    · exact absurd hlast (by simp)
    · next hpath =>
      rw [hpath]
      exact List.mem_of_getLast? hlast
  have hsegment := h.tidy name hmem
  exact ⟨hne, hsegment.ne_current, hsegment.ne_parent, hsegment.slash⟩

end Rebadge.Url
