import Rebadge.Proofs.Version.Repeated

/-!
# Texts taken apart at their local versions

A text is a gap, a development version, its label, the next gap and so on, where each label is as
long as it can be and no local version starts inside a gap. A text can be taken apart in one way
only (`Decomposition.eq_of_text`), and every text can (`exists_decomposition`). Cutting the local
versions leaves the gaps and the development versions (`stripLocalVersion_decomposition`).
-/

namespace Rebadge.Version

open Text (isWordChar)

/-! ## Where local versions start -/

/-- A development version with a label starts the text. -/
def StartsLocal (s : List Char) : Prop :=
  ∃ dev label after, IsDev dev ∧ IsWord label ∧ s = dev ++ '+' :: (label ++ after)

variable {s t rest rest' gap gap' : List Char}

/-- The search finds the development version, with a label that is as long as it can be. -/
theorem localVersion?_of_isDev {dev label after : List Char} (hdev : IsDev dev)
    (hlabel : IsWord label) :
    localVersion? (dev ++ '+' :: (label ++ after)) =
      some ⟨dev, (label ++ after).takeWhile isWordChar⟩ :=
  (localVersion?_plus hdev.plus _).1 ⟨hdev, hlabel.startsLabel after⟩

/-- What the search finds is a development version with a label, and no word character follows. -/
theorem parts_of_localVersion? {m : LocalVersion} (h : localVersion? s = some m) :
    IsDev m.base ∧ IsWord m.label ∧
      ∃ rest, s = m.base ++ '+' :: (m.label ++ rest) ∧ ∀ c ∈ rest.head?, isWordChar c = false := by
  have hdev := isDev_of_localVersion? h
  obtain ⟨⟨t, rfl⟩, -, -, -⟩ := localVersion?_eq_some h
  obtain ⟨hsome, hnone⟩ := localVersion?_plus hdev.plus (m.label ++ t)
  by_cases hstart : StartsLabel (m.label ++ t)
  · rw [hsome ⟨hdev, hstart⟩, Option.some.injEq] at h
    have hlabel : (m.label ++ t).takeWhile isWordChar = m.label := congrArg LocalVersion.label h
    refine ⟨hdev, ⟨?_, ?_⟩, (m.label ++ t).dropWhile isWordChar, ?_, head?_dropLabel _⟩
    · rw [← hlabel]
      exact fun hnil => absurd (startsLabel_iff.1 hstart) (by simp [hnil])
    · rw [← hlabel]
      exact List.all_eq_true.1 List.all_takeWhile
    · conv =>
        lhs; rw [← List.takeWhile_append_dropWhile (p := isWordChar) (l := m.label ++ t), hlabel]
  · rw [hnone fun hboth => hstart hboth.2] at h
    exact absurd h (by simp)

/-- The search finds nothing exactly where no local version starts. -/
theorem localVersion?_eq_none_iff : localVersion? s = none ↔ ¬ StartsLocal s := by
  constructor
  · rintro hnone ⟨dev, label, after, hdev, hlabel, rfl⟩
    rw [localVersion?_of_isDev hdev hlabel] at hnone
    exact absurd hnone (by simp)
  · intro hstart
    rw [Option.eq_none_iff_forall_ne_some]
    intro m hm
    obtain ⟨hdev, hlabel, after, hs, -⟩ := parts_of_localVersion? hm
    exact hstart ⟨m.base, m.label, after, hdev, hlabel, hs⟩

/-- No local version starts inside the gap, when `rest` follows it. -/
def NoneStartsIn (gap rest : List Char) : Prop :=
  ∀ s, s ≠ [] → s <:+ gap → ¬ StartsLocal (s ++ rest)

theorem noneStartsIn_nil (rest : List Char) : NoneStartsIn [] rest :=
  Chars.forall_positions_nil (P := fun s => ¬ StartsLocal s) rest

theorem noneStartsIn_cons {c : Char} :
    NoneStartsIn (c :: gap) rest ↔ ¬ StartsLocal (c :: gap ++ rest) ∧ NoneStartsIn gap rest :=
  Chars.forall_positions_cons (P := fun s => ¬ StartsLocal s)

theorem NoneStartsIn.stripFrom (h : NoneStartsIn gap rest) :
    stripFrom 0 (gap ++ rest) = gap ++ stripFrom 0 rest :=
  stripFrom_append_of_none fun s hne hs => localVersion?_eq_none_iff.2 (h s hne hs)

/-! ## Taking a text apart -/

/-- A development version, the label that is cut from it, and the gap behind the label. -/
structure Cut where
  dev : List Char
  label : List Char
  gap : List Char

/-- A text in parts: the gap before the first local version, and the local versions. -/
structure Decomposition where
  gap : List Char
  cuts : List Cut

/-- The text of local versions and the gaps behind them. -/
def textOf (cuts : List Cut) : List Char := cuts.flatMap fun c => c.dev ++ '+' :: (c.label ++ c.gap)

/-- The text without the labels. -/
def baseOf (cuts : List Cut) : List Char := cuts.flatMap fun c => c.dev ++ c.gap

/-- The parts put together. -/
def Decomposition.text (d : Decomposition) : List Char := d.gap ++ textOf d.cuts

/-- The parts put together without the labels. -/
def Decomposition.base (d : Decomposition) : List Char := d.gap ++ baseOf d.cuts

/-- The first part of a cut is a development version and the second one a label that does not go on.
No local version starts in the gap. -/
structure Cut.Valid (c : Cut) (rest : List Char) : Prop where
  dev : IsDev c.dev
  label : IsWord c.label
  ends : ∀ x ∈ (c.gap ++ rest).head?, isWordChar x = false
  gap : NoneStartsIn c.gap rest

/-- Each cut is one before those that follow. -/
def CutsValid : List Cut → Prop
  | [] => True
  | c :: cuts => c.Valid (textOf cuts) ∧ CutsValid cuts

/-- The parts are what they should be. -/
structure Decomposition.Valid (d : Decomposition) : Prop where
  gap : NoneStartsIn d.gap (textOf d.cuts)
  cuts : CutsValid d.cuts

variable {c c' : Cut} {cuts cuts' : List Cut} {d d' : Decomposition}

theorem textOf_cons (c : Cut) (cuts : List Cut) :
    textOf (c :: cuts) = c.dev ++ '+' :: (c.label ++ (c.gap ++ textOf cuts)) := by
  simp [textOf]

theorem baseOf_cons (c : Cut) (cuts : List Cut) :
    baseOf (c :: cuts) = c.dev ++ (c.gap ++ baseOf cuts) := by
  simp [baseOf]

theorem CutsValid.starts (h : CutsValid cuts) (hne : textOf cuts ≠ []) :
    StartsLocal (textOf cuts) := by
  cases cuts with
  | nil => exact absurd rfl hne
  | cons c cuts =>
    exact ⟨c.dev, c.label, c.gap ++ textOf cuts, h.1.dev, h.1.label, textOf_cons c cuts⟩

/-! ## One way only -/

/-- Of two gaps none is longer: a local version starts where the shorter one ends. -/
theorem CutsValid.gap_prefix (h : CutsValid cuts) (hgap' : NoneStartsIn gap' (textOf cuts'))
    (heq : gap ++ textOf cuts = gap' ++ textOf cuts') : gap' <+: gap := by
  rcases List.append_eq_append_iff.1 heq with ⟨k, rfl, hk⟩ | ⟨k, rfl, -⟩
  · cases k with
    | nil => simp
    | cons x k =>
      have hstart := h.starts (by rw [hk]; simp)
      rw [hk] at hstart
      exact absurd hstart (hgap' _ (List.cons_ne_nil x k) (List.suffix_append gap _))
  · exact List.prefix_append gap' k

theorem gap_eq (hgap : NoneStartsIn gap (textOf cuts)) (hcuts : CutsValid cuts)
    (hgap' : NoneStartsIn gap' (textOf cuts')) (hcuts' : CutsValid cuts')
    (heq : gap ++ textOf cuts = gap' ++ textOf cuts') :
    gap = gap' ∧ textOf cuts = textOf cuts' := by
  have hle := (hcuts.gap_prefix hgap' heq).length_le
  have hge := (hcuts'.gap_prefix hgap heq.symm).length_le
  exact List.append_inj heq (by omega)

theorem Cut.Valid.takeWhile_label (h : c.Valid rest) :
    (c.label ++ (c.gap ++ rest)).takeWhile isWordChar = c.label := by
  rw [(takeWhile_append_of_head h.ends c.label).1]
  exact List.takeWhile_eq_self_iff.2 h.label.word

theorem Cut.Valid.eq_of_text (h : c.Valid rest) (h' : c'.Valid rest')
    (heq : c.dev ++ '+' :: (c.label ++ (c.gap ++ rest)) = c'.dev ++ '+' ::
      (c'.label ++ (c'.gap ++ rest'))) :
    c.dev = c'.dev ∧ c.label = c'.label ∧ c.gap ++ rest = c'.gap ++ rest' := by
  obtain ⟨hdev, htail⟩ := (Chars.append_sep_inj h.dev.plus h'.dev.plus).1 heq
  have hlabel : c.label = c'.label := by rw [← h.takeWhile_label, htail, h'.takeWhile_label]
  rw [hlabel] at htail
  exact ⟨hdev, hlabel, List.append_cancel_left htail⟩

theorem CutsValid.eq_of_text (h : CutsValid cuts) (h' : CutsValid cuts')
    (heq : textOf cuts = textOf cuts') : cuts = cuts' := by
  induction cuts generalizing cuts' with
  | nil =>
    cases cuts' with
    | nil => rfl
    | cons c' cuts' =>
      rw [textOf_cons] at heq
      exact absurd heq.symm (by simp [textOf])
  | cons c cuts ih =>
    cases cuts' with
    | nil =>
      rw [textOf_cons] at heq
      exact absurd heq (by simp [textOf])
    | cons c' cuts' =>
      rw [textOf_cons, textOf_cons] at heq
      obtain ⟨hdev, hlabel, htail⟩ := h.1.eq_of_text h'.1 heq
      obtain ⟨hgap, hrest⟩ := gap_eq h.1.gap h.2 h'.1.gap h'.2 htail
      rw [ih h.2 h'.2 hrest]
      cases c
      cases c'
      simp_all

/-- **One way only.** Two decompositions of a text are the same. -/
theorem Decomposition.eq_of_text (h : d.Valid) (h' : d'.Valid) (heq : d.text = d'.text) :
    d = d' := by
  obtain ⟨hgap, hrest⟩ := gap_eq h.gap h.cuts h'.gap h'.cuts heq
  have hcuts := h.cuts.eq_of_text h'.cuts hrest
  cases d
  cases d'
  simp_all

/-! ## Every text -/

theorem Decomposition.Valid.cons {x : Char} (h : d.Valid) (hstart : ¬ StartsLocal (x :: d.text)) :
    Decomposition.Valid ⟨x :: d.gap, d.cuts⟩ where
  gap := noneStartsIn_cons.2 ⟨hstart, h.gap⟩
  cuts := h.cuts

/-- A local version goes before the first gap, which then is the one behind its label. -/
theorem Decomposition.Valid.cut {dev label : List Char} (h : d.Valid) (hdev : IsDev dev)
    (hlabel : IsWord label) (hends : ∀ x ∈ d.text.head?, isWordChar x = false) :
    Decomposition.Valid ⟨[], ⟨dev, label, d.gap⟩ :: d.cuts⟩ where
  gap := noneStartsIn_nil _
  cuts := ⟨⟨hdev, hlabel, hends, h.gap⟩, h.cuts⟩

/-- **Every text** can be taken apart. -/
theorem exists_decomposition (s : List Char) : ∃ d : Decomposition, d.Valid ∧ d.text = s := by
  induction s using cut_induction with
  | nil => exact ⟨⟨[], []⟩, ⟨noneStartsIn_nil _, trivial⟩, rfl⟩
  | keep x s hm ih =>
    obtain ⟨d, hd, rfl⟩ := ih
    exact ⟨⟨x :: d.gap, d.cuts⟩, hd.cons (localVersion?_eq_none_iff.1 hm), rfl⟩
  | cut x s m hm ih =>
    obtain ⟨hdev, hlabel, rest, hs, hends⟩ := parts_of_localVersion? hm
    rw [drop_of_localVersion? hs] at ih
    obtain ⟨d, hd, rfl⟩ := ih
    refine ⟨⟨[], ⟨m.base, m.label, d.gap⟩ :: d.cuts⟩, hd.cut hdev hlabel hends, ?_⟩
    rw [hs]
    exact textOf_cons _ _

/-! ## What is cut -/

theorem Cut.Valid.stripFrom (h : c.Valid rest) :
    stripFrom 0 (c.dev ++ '+' :: (c.label ++ (c.gap ++ rest))) = c.dev ++
    stripFrom 0 (c.gap ++ rest) := by
  rw [(stripFrom_label h.dev.plus ⟨[], c.dev, h.dev, rfl⟩ (h.label.startsLabel _)).1,
    (takeWhile_append_of_head h.ends c.label).2, List.dropWhile_eq_nil_iff.2 h.label.word,
    List.nil_append]

theorem CutsValid.stripFrom (h : CutsValid cuts) : stripFrom 0 (textOf cuts) = baseOf cuts := by
  induction cuts with
  | nil => rfl
  | cons c cuts ih => rw [textOf_cons, baseOf_cons, h.1.stripFrom, h.1.gap.stripFrom, ih h.2]

/-- **What is cut.** The labels go, with the plus before each, and all else stays. -/
theorem Decomposition.Valid.stripFrom (h : d.Valid) : stripFrom 0 d.text = d.base := by
  unfold Decomposition.text Decomposition.base
  rw [h.gap.stripFrom, h.cuts.stripFrom]

theorem stripFrom_eq_self_of_not_mem {s : List Char} (h : 'd' ∉ Version.stripFrom 0 s) :
    Version.stripFrom 0 s = s := by
  obtain ⟨⟨gap, cuts⟩, hvalid, rfl⟩ := exists_decomposition s
  rw [hvalid.stripFrom] at h ⊢
  cases cuts with
  | nil => rfl
  | cons c cuts =>
    refine absurd (List.mem_append_right gap ?_) h
    rw [baseOf_cons]
    exact List.mem_append_left _ hvalid.cuts.1.dev.d_mem

/-- **Cutting local versions.** A text can be taken apart in exactly one way. Cutting its local
versions leaves this decomposition without the labels, and it leaves the text as it is exactly if
the text holds no local version. -/
theorem stripLocalVersion_decomposition (s : String) :
    (∃! d : Decomposition, d.Valid ∧ d.text = s.toList) ∧
      (∀ d : Decomposition, d.Valid → d.text = s.toList → (stripLocalVersion s).toList = d.base) ∧
      (stripLocalVersion s = s ↔ ¬ HoldsLocal s.toList) := by
  refine ⟨?_, ?_, ?_⟩
  · obtain ⟨d, hd, htext⟩ := exists_decomposition s.toList
    exact ⟨d, ⟨hd, htext⟩, fun d' h' => Decomposition.eq_of_text h'.1 hd (h'.2.trans htext.symm)⟩
  · intro d hd htext
    rw [toList_stripLocalVersion, ← htext, hd.stripFrom]
  · rw [← String.toList_inj, toList_stripLocalVersion]
    exact settled_iff s.toList

end Rebadge.Version
