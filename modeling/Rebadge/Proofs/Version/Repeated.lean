import Rebadge.Proofs.Text.Separator
import Rebadge.Proofs.Version.Suffix

/-!
# Cutting local versions twice

Between two pluses a text either ends with a development version or not, and this alone decides
whether the label behind the second plus is cut (`stripFrom_label`, `stripFrom_plus`). A cut joins
the development version with what follows the label. So a second pass cuts something exactly if what
follows some label goes on with another label, or makes the last number of the development version
the first one of another (`stripLocalVersion_twice_iff`).
-/

namespace Rebadge.Version

open Text (isDecimalDigit isWordChar)

/-! ## The form of development versions -/

/-- A run of digits that is not empty. -/
structure IsNumber (s : List Char) : Prop where
  ne_nil : s ≠ []
  digit : ∀ c ∈ s, isDecimalDigit c = true

/-- What follows the first number of a development version: `.N.N.devN`. -/
def IsDevTail (s : List Char) : Prop :=
  ∃ minor patch dev, IsNumber minor ∧ IsNumber patch ∧ IsNumber dev ∧
    s = '.' :: minor ++ '.' :: patch ++ '.' :: 'd' :: 'e' :: 'v' :: dev

/-- The text is a development version `N.N.N.devN`. -/
def IsDev (s : List Char) : Prop :=
  ∃ major tail, IsNumber major ∧ IsDevTail tail ∧ s = major ++ tail

/-- The text ends with a development version. -/
def EndsDev (s : List Char) : Prop := ∃ before dev, IsDev dev ∧ s = before ++ dev

/-- A label starts the text. -/
def StartsLabel (s : List Char) : Prop := ∃ c ∈ s.head?, isWordChar c = true

variable {a b s t u w x y z : List Char} {c : Char}

theorem IsDev.d_mem (h : IsDev s) : 'd' ∈ s := by
  obtain ⟨major, tail, -, ⟨minor, patch, dev, -, -, -, rfl⟩, rfl⟩ := h
  simp

theorem not_digit_dot : isDecimalDigit '.' = false := by decide

theorem IsNumber.dot (h : IsNumber s) : '.' ∉ s := fun hmem => absurd (h.digit _ hmem) (by decide)

theorem IsNumber.notD (h : IsNumber s) : 'd' ∉ s := fun hmem => absurd (h.digit _ hmem) (by decide)

theorem number?_append (h : IsNumber s) (hy : ∀ c ∈ y.head?, isDecimalDigit c = false) :
    number? (s ++ y) = some (s, y) := by
  obtain ⟨htake, hdrop⟩ := takeWhile_append_of_head hy s
  have hself : s.takeWhile isDecimalDigit = s := List.takeWhile_eq_self_iff.2 h.digit
  have hnil : s.dropWhile isDecimalDigit = [] := List.dropWhile_eq_nil_iff.2 h.digit
  unfold number?
  rw [htake, hdrop, hself, hnil]
  exact if_neg (by simp [h.ne_nil])

theorem isNumber_of_number? {ds rest : List Char} (h : number? s = some (ds, rest)) :
    IsNumber ds ∧ s = ds ++ rest := by
  obtain ⟨happend, hne, hdigit⟩ := number?_eq_some h
  exact ⟨⟨hne, hdigit⟩, happend⟩

theorem isDev_of_devVersion? {base rest : List Char} (h : devVersion? s = some (base, rest)) :
    IsDev base ∧ s = base ++ rest := by
  refine ⟨?_, (devVersion?_eq_some h).1⟩
  simp only [devVersion?, Option.bind_eq_bind, Option.bind_eq_some_iff, Prod.exists] at h
  obtain ⟨major, s₁, h₁, s₂, -, minor, s₃, h₃, s₄, -, patch, s₅, h₅, s₆, -, dev, s₇, h₇, h⟩ := h
  simp only [Option.pure_def, Option.some.injEq, Prod.mk.injEq] at h
  refine ⟨major, _, (isNumber_of_number? h₁).1,
    ⟨minor, patch, dev, (isNumber_of_number? h₃).1, (isNumber_of_number? h₅).1,
      (isNumber_of_number? h₇).1, rfl⟩, ?_⟩
  rw [← h.1]
  simp

theorem isDev_of_localVersion? {m : LocalVersion} (h : localVersion? s = some m) :
    IsDev m.base := by
  simp only [localVersion?, Option.bind_eq_bind, Option.bind_eq_some_iff, Prod.exists] at h
  obtain ⟨base, s₁, hdev, s₂, -, h⟩ := h
  split at h
  · exact absurd h (by simp)
  · obtain rfl := Option.some.inj h
    exact (isDev_of_devVersion? hdev).1

theorem devVersion?_of_isDev (h : IsDev s) : devVersion? s = some (s, []) := by
  obtain ⟨major, _, hmajor, ⟨minor, patch, dev, hminor, hpatch, hdev, rfl⟩, rfl⟩ := h
  have hdot : ∀ (r : List Char), ∀ c ∈ ('.' :: r).head?, isDecimalDigit c = false := by
    intro r c hc
    obtain rfl : '.' = c := by simpa using hc
    exact not_digit_dot
  have hlast : number? dev = some (dev, []) := by
    have h := number?_append (y := []) hdev (by simp)
    rwa [List.append_nil] at h
  have hnil : ∀ r : List Char, [].isPrefixOf? r = some r := fun _ => rfl
  unfold devVersion?
  simp only [List.cons_append, List.append_assoc, number?_append hmajor (hdot _),
    number?_append hminor (hdot _), number?_append hpatch (hdot _), Option.bind_eq_bind,
    Option.bind_some, isPrefixOf?_cons, beq_self_eq_true, if_true,
    hnil, hlast, Option.pure_def]

theorem devVersion?_eq_nil {base : List Char} : devVersion? s = some (base, []) ↔
    IsDev s ∧ base = s := by
  constructor
  · intro h
    obtain ⟨hdev, happend⟩ := isDev_of_devVersion? h
    rw [List.append_nil] at happend
    exact ⟨happend ▸ hdev, happend.symm⟩
  · rintro ⟨hdev, rfl⟩
    exact devVersion?_of_isDev hdev

theorem IsDev.isVersionChar (h : IsDev s) (hc : c ∈ s) : isVersionChar c = true :=
  (devVersion?_eq_some (devVersion?_of_isDev h)).2.2 c hc

theorem IsDev.plus (h : IsDev s) : '+' ∉ s := fun hmem => absurd (h.isVersionChar hmem) (by decide)

theorem IsDev.ne_nil (h : IsDev s) : s ≠ [] := by
  obtain ⟨major, tail, hmajor, -, rfl⟩ := h
  simp [hmajor.ne_nil]

theorem IsDevTail.count_dot (h : IsDevTail s) : s.count '.' = 3 := by
  obtain ⟨minor, patch, dev, hminor, hpatch, hdev, rfl⟩ := h
  simp [List.count_eq_zero.2 hminor.dot, List.count_eq_zero.2 hpatch.dot,
    List.count_eq_zero.2 hdev.dot]

theorem IsDev.count_dot (h : IsDev s) : s.count '.' = 3 := by
  obtain ⟨major, tail, hmajor, htail, rfl⟩ := h
  rw [List.count_append, List.count_eq_zero.2 hmajor.dot, htail.count_dot]

/-- There is one `d`, and no dot behind it. -/
theorem IsDev.split (h : IsDev s) :
    ∃ front back, s = front ++ 'd' :: back ∧ 'd' ∉ front ∧ '.' ∉ back := by
  obtain ⟨major, _, hmajor, ⟨minor, patch, dev, hminor, hpatch, hdev, rfl⟩, rfl⟩ := h
  refine ⟨major ++ '.' :: minor ++ '.' :: patch ++ ['.'], 'e' :: 'v' :: dev, by simp, ?_, ?_⟩
  · simp [hmajor.notD, hminor.notD, hpatch.notD]
  · simp [hdev.dot]

theorem IsDev.extend (h : IsDev s) (hz : IsDevTail z) : EndsDev (s ++ z) := by
  obtain ⟨major, _, -, ⟨minor, patch, dev, -, -, hdev, rfl⟩, rfl⟩ := h
  exact ⟨major ++ '.' :: minor ++ '.' :: patch ++ ['.', 'd', 'e', 'v'], dev ++ z,
    ⟨dev, z, hdev, hz, rfl⟩, by simp⟩

theorem EndsDev.prepend (h : EndsDev s) (x : List Char) : EndsDev (x ++ s) := by
  obtain ⟨before, dev, hdev, rfl⟩ := h
  exact ⟨x ++ before, dev, hdev, by rw [List.append_assoc]⟩

theorem endsDev_cons : EndsDev (c :: s) ↔ IsDev (c :: s) ∨ EndsDev s := by
  constructor
  · rintro ⟨before, dev, hdev, heq⟩
    cases before with
    | nil => exact Or.inl (heq ▸ hdev)
    | cons b before => exact Or.inr ⟨before, dev, hdev, (List.cons.inj heq).2⟩
  · rintro (h | h)
    · exact ⟨[], _, h, rfl⟩
    · exact h.prepend [c]

/-! ## Development versions that overlap -/

theorem eq_dot_of_isVersionChar (h : isVersionChar c = true) (hword : isWordChar c = false) :
    c = '.' := by
  unfold isVersionChar at h
  rw [Bool.or_eq_true] at h
  rcases h with hdigit | hletter
  · rw [Text.isWordChar_of_isDecimalDigit hdigit] at hword
    exact absurd hword (by simp)
  · simp only [List.contains_cons, List.contains_nil, Bool.or_eq_true, beq_iff_eq, Bool.or_false]
      at hletter
    rcases hletter with rfl | rfl | rfl | rfl
    · rfl
    · exact absurd hword (by decide)
    · exact absurd hword (by decide)
    · exact absurd hword (by decide)

theorem IsDev.notD_of_dot (h : IsDev (y ++ '.' :: z)) : 'd' ∉ y := by
  intro hmem
  obtain ⟨y₁, y₂, rfl, hy₁⟩ := List.eq_append_cons_of_mem hmem
  obtain ⟨front, back, hsplit, hfront, hback⟩ := h.split
  rw [List.append_assoc, List.cons_append, Chars.append_sep_inj hy₁ hfront] at hsplit
  exact hback (hsplit.2 ▸ by simp)

theorem EndsDev.not_dot_of_notD (h : EndsDev (x ++ y)) (hd : 'd' ∉ y) : '.' ∉ y := by
  obtain ⟨before, dev, hdev, heq⟩ := h
  obtain ⟨front, back, rfl, -, hback⟩ := hdev.split
  rw [← List.append_assoc] at heq
  rcases List.append_eq_append_iff.1 heq.symm with ⟨m, -, hm⟩ | ⟨m, -, rfl⟩
  · cases m with
    | nil =>
      exact absurd (show y = 'd' :: back from hm.symm ▸ rfl) fun heq =>
        hd (heq ▸ List.mem_cons_self)
    | cons d m =>
      rw [(List.cons.inj hm).2] at hback
      exact fun hmem => hback (List.mem_append_right _ hmem)
  · exact absurd (by simp) hd

theorem IsDev.devTail (h : IsDev (y ++ '.' :: z)) (hy : '.' ∉ y) : IsDevTail ('.' :: z) := by
  obtain ⟨major, tail, hmajor, htail, htext⟩ := h
  obtain ⟨minor, patch, last, -, -, -, htailText⟩ := id htail
  rw [htailText, List.append_assoc, List.cons_append, Chars.append_sep_inj hy hmajor.dot] at htext
  rw [htext.2]
  rwa [htailText, List.append_assoc, List.cons_append] at htail

/-- **Two development versions that overlap.** Behind a development version and something that is no
word another one ends only if it stands there by itself, or starts with the last number of the
first. -/
theorem endsDev_append (ha : EndsDev a) (hz : ∀ c ∈ z.head?, isWordChar c = false) :
    EndsDev (a ++ z) ↔ EndsDev z ∨ z = [] ∨ IsDevTail z := by
  constructor
  · rintro ⟨before, dev, hdev, heq⟩
    rcases List.append_eq_append_iff.1 heq with ⟨k, -, rfl⟩ | ⟨k, hk, rfl⟩
    · exact Or.inl ⟨k, dev, hdev, rfl⟩
    right
    cases z with
    | nil => exact Or.inl rfl
    | cons c z =>
      obtain rfl := eq_dot_of_isVersionChar (hdev.isVersionChar (c := c) (by simp)) (hz c rfl)
      -- What the second one takes of the first is the end of the last number.
      exact Or.inr (hdev.devTail (EndsDev.not_dot_of_notD (hk ▸ ha) hdev.notD_of_dot))
  · rintro (h | rfl | h)
    · exact h.prepend a
    · rwa [List.append_nil]
    · obtain ⟨x, dev, hdev, rfl⟩ := ha
      rw [List.append_assoc]
      exact (hdev.extend h).prepend x

/-- Behind its head the end of a text is no tail of a development version if it ends with one of its
own. -/
theorem EndsDev.not_devTail (h : EndsDev z) (hz : ∀ c ∈ z.head?, isWordChar c = false)
    (y : List Char) : ¬ IsDevTail (z ++ y) := by
  intro htail
  obtain ⟨before, dev, hdev, rfl⟩ := h
  have hcount := htail.count_dot
  obtain ⟨minor, patch, last, -, -, -, heq⟩ := htail
  cases before with
  | nil =>
    obtain ⟨major, tail, hmajor, -, rfl⟩ := hdev
    obtain ⟨c, major, rfl⟩ := List.exists_cons_of_ne_nil hmajor.ne_nil
    have hdigit := hmajor.digit c List.mem_cons_self
    rw [(List.cons.inj heq).1] at hdigit
    exact absurd hdigit (by decide)
  | cons c before =>
    have hc : c = '.' := (List.cons.inj heq).1
    rw [List.count_append, List.count_append, hdev.count_dot, hc, List.count_cons_self] at hcount
    omega

/-! ## One cut -/

/-- What follows each local version that is cut, where `skip` characters at the front belong to a
local version that was already met. -/
def remainders : Nat → List Char → List (List Char)
  | _, [] => []
  | skip + 1, _ :: s => remainders skip s
  | 0, c :: s =>
    match localVersion? (c :: s) with
    | some m => s.drop (m.length - 1) :: remainders (m.length - 1) s
    | none => remainders 0 s

theorem remainders_eq_drop (skip : Nat) (s : List Char) :
    remainders skip s = remainders 0 (s.drop skip) := by
  induction skip generalizing s with
  | zero => simp
  | succ k ih => cases s with
    | nil => simp [remainders]
    | cons c s => simpa [remainders] using ih s

theorem remainders_none (h : localVersion? (c :: s) = none) :
    remainders 0 (c :: s) = remainders 0 s := by
  rw [remainders, h]

theorem remainders_some {m : LocalVersion} (h : localVersion? (c :: s) = some m) :
    remainders 0 (c :: s) = s.drop (m.length - 1) :: remainders 0 (s.drop (m.length - 1)) := by
  rw [remainders, h, ← remainders_eq_drop]

theorem startsLabel_iff : StartsLabel t ↔ (t.takeWhile isWordChar).isEmpty = false := by
  cases t with
  | nil => simp [StartsLabel]
  | cons c t => by_cases hc : isWordChar c = true <;> simp [StartsLabel, hc]

/-- A local version starts a text exactly if all up to the first plus is a development version, and
a label follows. -/
theorem localVersion?_plus (ha : '+' ∉ a) (t : List Char) : (IsDev a ∧ StartsLabel t →
      localVersion? (a ++ '+' :: t) = some ⟨a, t.takeWhile isWordChar⟩) ∧
    (¬ (IsDev a ∧ StartsLabel t) → localVersion? (a ++ '+' :: t) = none) := by
  rw [localVersion?_append_plus ha, startsLabel_iff]
  refine ⟨fun ⟨hdev, hlabel⟩ => ?_, fun h => ?_⟩
  · rw [devVersion?_of_isDev hdev]
    exact if_neg (by simp [hlabel])
  · split
    · next base hbase =>
      obtain ⟨hdev, rfl⟩ := devVersion?_eq_nil.1 hbase
      exact if_pos (by simpa using fun hlabel => h ⟨hdev, hlabel⟩)
    · rfl

/-- **A label behind a development version** is cut. -/
theorem stripFrom_label (hplus : '+' ∉ a) (ha : EndsDev a) (ht : StartsLabel t) :
    stripFrom 0 (a ++ '+' :: t) = a ++ stripFrom 0 (t.dropWhile isWordChar) ∧
      remainders 0 (a ++ '+' :: t) = t.dropWhile isWordChar ::
      remainders 0 (t.dropWhile isWordChar) := by
  induction a with
  | nil =>
    obtain ⟨before, dev, hdev, heq⟩ := ha
    exact absurd (List.append_eq_nil_iff.1 heq.symm).2 hdev.ne_nil
  | cons c a ih =>
    obtain ⟨hsome, hnone⟩ := localVersion?_plus hplus t
    by_cases hdev : IsDev (c :: a)
    · have hmatch : localVersion? (c :: (a ++ '+' :: t)) = some ⟨c :: a, t.takeWhile isWordChar⟩ :=
        hsome ⟨hdev, ht⟩
      have hsplit : c :: (a ++ '+' :: t) = c :: a ++ '+' ::
          (t.takeWhile isWordChar ++ t.dropWhile isWordChar) := by
        rw [List.takeWhile_append_dropWhile, List.cons_append]
      have hdrop := drop_of_localVersion? (m := ⟨c :: a, t.takeWhile isWordChar⟩) hsplit
      rw [List.cons_append, stripFrom_some hmatch, remainders_some hmatch, hdrop]
      exact ⟨rfl, rfl⟩
    · have hmatch : localVersion? (c :: (a ++ '+' :: t)) = none := hnone fun h => hdev h.1
      obtain ⟨hstrip, hrest⟩ := ih (fun hmem => hplus (List.mem_cons_of_mem c hmem))
        ((endsDev_cons.1 ha).resolve_left hdev)
      rw [List.cons_append, stripFrom_none hmatch, remainders_none hmatch, hstrip]
      exact ⟨rfl, hrest⟩

theorem stripFrom_plus (hplus : '+' ∉ a) (h : ¬ (EndsDev a ∧ StartsLabel t)) :
    stripFrom 0 (a ++ '+' :: t) = a ++ '+' :: stripFrom 0 t ∧
    remainders 0 (a ++ '+' :: t) = remainders 0 t := by
  induction a with
  | nil =>
    have hnone : localVersion? ('+' :: t) = none :=
      (localVersion?_plus (a := []) (by simp) t).2 fun h => h.1.ne_nil rfl
    exact ⟨stripFrom_none hnone, remainders_none hnone⟩
  | cons c a ih =>
    have hnone : localVersion? (c :: (a ++ '+' :: t)) = none :=
      (localVersion?_plus hplus t).2 fun hdev => h ⟨endsDev_cons.2 (Or.inl hdev.1), hdev.2⟩
    obtain ⟨hstrip, hrest⟩ := ih (fun hmem => hplus (List.mem_cons_of_mem c hmem))
      fun hends => h ⟨endsDev_cons.2 (Or.inr hends.1), hends.2⟩
    rw [List.cons_append, stripFrom_none hnone, remainders_none hnone, hstrip]
    exact ⟨rfl, hrest⟩

theorem stripFrom_of_not_plus (h : '+' ∉ s) : stripFrom 0 s = s ∧ remainders 0 s = [] := by
  induction s with
  | nil => exact ⟨rfl, rfl⟩
  | cons c s ih =>
    have hnone := localVersion?_of_not_plus h
    obtain ⟨hstrip, hrest⟩ := ih fun hmem => h (List.mem_cons_of_mem c hmem)
    rw [stripFrom_none hnone, remainders_none hnone, hstrip]
    exact ⟨rfl, hrest⟩

theorem head?_stripFrom (s : List Char) : (stripFrom 0 s).head? = s.head? := by
  cases s with
  | nil => rfl
  | cons c s =>
    cases hm : localVersion? (c :: s) with
    | none => rw [stripFrom_none hm, List.head?_cons, List.head?_cons]
    | some m =>
      obtain ⟨⟨rest, hs⟩, hdot, -⟩ := localVersion?_eq_some hm
      rw [stripFrom_some hm, hs, List.head?_append_of_ne_nil _ (List.ne_nil_of_mem hdot),
        List.head?_append_of_ne_nil _ (List.ne_nil_of_mem hdot)]

theorem startsLabel_stripFrom : StartsLabel (stripFrom 0 t) ↔ StartsLabel t := by
  unfold StartsLabel
  rw [head?_stripFrom]

theorem length_stripFrom_le (s : List Char) : (stripFrom 0 s).length ≤ s.length := by
  induction s using cut_induction with
  | nil => exact Nat.le_refl 0
  | keep c s hm ih =>
    rw [stripFrom_none hm, List.length_cons, List.length_cons]
    exact Nat.succ_le_succ ih
  | cut c s m hm ih =>
    have hle := length_le_of_localVersion? hm
    rw [List.length_cons] at hle
    rw [List.length_drop] at ih
    rw [stripFrom_some hm, List.length_append, List.length_cons]
    unfold LocalVersion.length at *
    omega

/-! ## Texts with nothing to cut -/

/-- Nothing is cut from the text. -/
def Settled (s : List Char) : Prop := stripFrom 0 s = s

/-- Some part of the text is a development version with a label. -/
def HoldsLocal (s : List Char) : Prop :=
  ∃ before dev label after, IsDev dev ∧ IsWord label ∧ s = before ++ dev ++ '+' :: (label ++ after)

theorem settled_plus (hplus : '+' ∉ a) :
    Settled (a ++ '+' :: t) ↔ ¬ (EndsDev a ∧ StartsLabel t) ∧ Settled t := by
  unfold Settled
  by_cases h : EndsDev a ∧ StartsLabel t
  · rw [(stripFrom_label hplus h.1 h.2).1]
    refine ⟨fun heq => ?_, fun hsettled => absurd h hsettled.1⟩
    have hlen := congrArg List.length heq
    have hstrip := length_stripFrom_le (t.dropWhile isWordChar)
    have hdrop := (List.dropWhile_sublist isWordChar (l := t)).length_le
    rw [List.length_append, List.length_append, List.length_cons] at hlen
    omega
  · rw [(stripFrom_plus hplus h).1, List.append_cancel_left_eq, List.cons.injEq,
      and_iff_right rfl, and_iff_right h]

theorem IsWord.startsLabel (h : IsWord s) (y : List Char) : StartsLabel (s ++ y) := by
  obtain ⟨c, s, rfl⟩ := List.exists_cons_of_ne_nil h.ne_nil
  exact ⟨c, rfl, h.word c List.mem_cons_self⟩

theorem holdsLocal_plus (hplus : '+' ∉ a) :
    HoldsLocal (a ++ '+' :: t) ↔ (EndsDev a ∧ StartsLabel t) ∨ HoldsLocal t := by
  constructor
  · rintro ⟨before, dev, label, after, hdev, hlabel, heq⟩
    rcases List.append_eq_append_iff.1 heq with ⟨k, hk, htail⟩ | ⟨k, rfl, htail⟩
    · cases k with
      | nil =>
        rw [List.append_nil] at hk
        rw [(List.cons.inj htail).2]
        exact Or.inl ⟨⟨before, dev, hdev, hk.symm⟩, hlabel.startsLabel after⟩
      | cons d k =>
        obtain ⟨rfl, rfl⟩ := List.cons.inj htail
        -- No plus is in the development version, so it lies behind the first one.
        rcases List.append_eq_append_iff.1 hk with ⟨m, -, rfl⟩ | ⟨m, -, hm⟩
        · exact absurd (by simp) hdev.plus
        · cases m with
          | nil => exact absurd (show '+' ∈ [] ++ dev from hm ▸ List.mem_cons_self) hdev.plus
          | cons e m =>
            rw [(List.cons.inj hm).2]
            exact Or.inr ⟨m, dev, label, after, hdev, hlabel, rfl⟩
    · cases k with
      | nil =>
        rw [List.append_nil, ← (List.cons.inj htail).2]
        exact Or.inl ⟨⟨before, dev, hdev, rfl⟩, hlabel.startsLabel after⟩
      | cons d k => exact absurd (by simp [← (List.cons.inj htail).1]) hplus
  · rintro (⟨⟨before, dev, hdev, rfl⟩, hlabel⟩ | ⟨before, dev, label, after, hdev, hlabel, rfl⟩)
    · refine ⟨before, dev, t.takeWhile isWordChar, t.dropWhile isWordChar, hdev,
        ⟨?_, List.all_eq_true.1 List.all_takeWhile⟩, ?_⟩
      · exact fun hnil => absurd (startsLabel_iff.1 hlabel) (by simp [hnil])
      · rw [List.takeWhile_append_dropWhile]
    · exact ⟨a ++ '+' :: before, dev, label, after, hdev, hlabel, by simp⟩

theorem HoldsLocal.plus (h : HoldsLocal s) : '+' ∈ s := by
  obtain ⟨before, dev, label, after, -, -, rfl⟩ := h
  simp

/-- **Nothing is cut** exactly from texts without local versions. -/
theorem settled_iff (s : List Char) : Settled s ↔ ¬ HoldsLocal s := by
  induction hn : s.length using Nat.strongRecOn generalizing s with
  | ind n ih =>
    by_cases hplus : '+' ∈ s
    · obtain ⟨a, t, rfl, ha⟩ := List.eq_append_cons_of_mem hplus
      rw [settled_plus ha, holdsLocal_plus ha, not_or, ih t.length (by simp at hn; omega) t rfl]
    · exact iff_of_true (stripFrom_of_not_plus hplus).1 fun h => hplus h.plus

/-! ## The second pass -/

/-- Behind a development version the text makes another local version: a second label follows at
once, or behind `.N.N.devN`. -/
def Resumes (s : List Char) : Prop :=
  ∃ z t, (z = [] ∨ IsDevTail z) ∧ StartsLabel t ∧ s = z ++ '+' :: t

theorem IsDevTail.plus (h : IsDevTail z) : '+' ∉ z := by
  have hdev : IsDev ('0' :: z) :=
    ⟨['0'], z, ⟨by simp, List.forall_mem_singleton.2 (by decide)⟩, h, rfl⟩
  exact fun hmem => hdev.plus (List.mem_cons_of_mem _ hmem)

theorem resumes_plus (hplus : '+' ∉ z) :
    Resumes (z ++ '+' :: t) ↔ (z = [] ∨ IsDevTail z) ∧ StartsLabel t := by
  constructor
  · rintro ⟨z', t', hz', ht', heq⟩
    have hplus' : '+' ∉ z' := by
      rcases hz' with rfl | hz'
      · exact List.not_mem_nil
      · exact hz'.plus
    obtain ⟨rfl, rfl⟩ := (Chars.append_sep_inj hplus hplus').1 heq
    exact ⟨hz', ht'⟩
  · rintro ⟨hz, ht⟩
    exact ⟨z, t, hz, ht, rfl⟩

theorem Resumes.plus (h : Resumes s) : '+' ∈ s := by
  obtain ⟨z, t, -, -, rfl⟩ := h
  simp

/-- What is joined with a development version is settled if it is so by itself and does not go on
with the version. -/
theorem settled_append (ha : EndsDev a) (hplus : '+' ∉ a)
    (hy : ∀ c ∈ y.head?, isWordChar c = false) : Settled (a ++ y) ↔ ¬ Resumes y ∧ Settled y := by
  by_cases hplusY : '+' ∈ y
  · obtain ⟨z, t, rfl, hz⟩ := List.eq_append_cons_of_mem hplusY
    have hhead : ∀ c ∈ z.head?, isWordChar c = false := by
      intro c hc
      exact hy c (by rw [List.head?_append, hc, Option.some_or]; rfl)
    rw [← List.append_assoc, settled_plus (by simp [hplus, hz]), settled_plus hz, resumes_plus hz,
      endsDev_append ha hhead]
    tauto
  · have hnot : '+' ∉ a ++ y := by simp [hplus, hplusY]
    exact iff_of_true (stripFrom_of_not_plus hnot).1
      ⟨fun h => hplusY h.plus, (stripFrom_of_not_plus hplusY).1⟩

theorem resumes_stripFrom (hu : ∀ c ∈ u.head?, isWordChar c = false) :
    Resumes (stripFrom 0 u) ↔ Resumes u := by
  by_cases hplus : '+' ∈ u
  · obtain ⟨z, t, rfl, hz⟩ := List.eq_append_cons_of_mem hplus
    by_cases h : EndsDev z ∧ StartsLabel t
    · have hhead : ∀ c ∈ z.head?, isWordChar c = false := by
        intro c hc
        exact hu c (by rw [List.head?_append, hc, Option.some_or]; rfl)
      have hne : z ≠ [] := by
        obtain ⟨before, dev, hdev, rfl⟩ := h.1
        simp [hdev.ne_nil]
      rw [(stripFrom_label hz h.1 h.2).1, resumes_plus hz]
      refine iff_of_false ?_ ?_
      · rintro ⟨z', t', hz', -, heq⟩
        obtain ⟨k, rfl⟩ : ∃ k, z' = z ++ k := by
          rcases List.append_eq_append_iff.1 heq with ⟨k, hk, -⟩ | ⟨k, rfl, hk⟩
          · exact ⟨k, hk⟩
          · cases k with
            | nil => exact ⟨[], by simp⟩
            | cons d k => exact absurd (by simp [← (List.cons.inj hk).1]) hz
        rcases hz' with hnil | htail
        · exact hne (List.append_eq_nil_iff.1 hnil).1
        · exact h.1.not_devTail hhead k htail
      · rintro ⟨hnil | htail, -⟩
        · exact hne hnil
        · exact h.1.not_devTail hhead [] (by rwa [List.append_nil])
    · rw [(stripFrom_plus hz h).1, resumes_plus hz, resumes_plus hz, startsLabel_stripFrom]
  · rw [(stripFrom_of_not_plus hplus).1]

theorem head?_dropLabel (t : List Char) :
    ∀ c ∈ (t.dropWhile isWordChar).head?, isWordChar c = false := by
  intro c hc
  have h := List.head?_dropWhile_not isWordChar t
  rw [hc] at h
  exact h

/-- The text that is left is settled if no remainder resumes a version. -/
theorem settled_stripFrom (s : List Char) :
    Settled (stripFrom 0 s) ↔ ∀ rest ∈ remainders 0 s, ¬ Resumes rest := by
  induction hn : s.length using Nat.strongRecOn generalizing s with
  | ind n ih =>
    by_cases hplus : '+' ∈ s
    · obtain ⟨a, t, rfl, ha⟩ := List.eq_append_cons_of_mem hplus
      rw [List.length_append, List.length_cons] at hn
      by_cases h : EndsDev a ∧ StartsLabel t
      · have hdrop := (List.dropWhile_sublist isWordChar (l := t)).length_le
        have hhead := head?_dropLabel t
        obtain ⟨hstrip, hrest⟩ := stripFrom_label ha h.1 h.2
        rw [hstrip, hrest, List.forall_mem_cons, settled_append h.1 ha (by rwa [head?_stripFrom]),
          resumes_stripFrom hhead, ih _ (by omega) _ rfl]
      · obtain ⟨hstrip, hrest⟩ := stripFrom_plus ha h
        rw [hstrip, hrest, settled_plus ha, startsLabel_stripFrom, and_iff_right h,
          ih _ (by omega) t rfl]
    · obtain ⟨hstrip, hrest⟩ := stripFrom_of_not_plus hplus
      rw [hstrip, hrest]
      exact iff_of_true hstrip (by simp)

/-- **Cutting twice.** A second pass changes nothing exactly if no local version is left, and
exactly if no local version that is cut is followed by what makes another one of its development
version. -/
theorem stripLocalVersion_twice_iff (s : String) :
    (stripLocalVersion (stripLocalVersion s) = stripLocalVersion s ↔
      ¬ HoldsLocal (stripLocalVersion s).toList) ∧
      (stripLocalVersion (stripLocalVersion s) = stripLocalVersion s ↔
        ∀ rest ∈ remainders 0 s.toList, ¬ Resumes rest) := by
  have hlist : (stripLocalVersion s).toList = stripFrom 0 s.toList := String.toList_ofList
  have hsettled : stripLocalVersion (stripLocalVersion s) = stripLocalVersion s ↔
      Settled (stripFrom 0 s.toList) := by
    have htwice : (stripLocalVersion (stripLocalVersion s)).toList =
        stripFrom 0 (stripLocalVersion s).toList :=
      String.toList_ofList
    rw [← String.toList_inj, htwice, hlist]
    rfl
  exact ⟨by rw [hsettled, hlist, settled_iff], by rw [hsettled, settled_stripFrom]⟩

/-- A second label is left behind the first one. -/
theorem stripLocalVersion_two_labels : stripLocalVersion "1.2.3.dev4+a+b" = "1.2.3.dev4+b" ∧
    stripLocalVersion (stripLocalVersion "1.2.3.dev4+a+b") ≠
    stripLocalVersion "1.2.3.dev4+a+b" := by decide

end Rebadge.Version
