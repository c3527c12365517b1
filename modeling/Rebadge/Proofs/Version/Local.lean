import Mathlib.Data.List.Nodup
import Rebadge.Version.Local

/-!
# Where local versions end

A local version is a run of digits, dots and the word `dev`, then `+` and a run of word characters.
It ends where a text goes on with none of these, so cutting local versions works on each side of
such a place by itself (`stripFrom_append`). A separator is such a place, and so is a dot with
neither a number nor `dev` behind it.
-/

namespace Rebadge.Text

/-- The ranges that are left when each range of a table has taken the ranges it covers off the
front. -/
def uncovered (table small : List (Nat × Nat)) : List (Nat × Nat) :=
  table.foldl (fun left q => left.dropWhile fun r => q.1 ≤ r.1 && r.2 ≤ q.2) small

/-- If every range is covered by one of a table, so is every code point. -/
theorem inRanges_of_uncovered {table small : List (Nat × Nat)} {n : Nat}
    (h : uncovered table small = []) (hn : inRanges small n = true) : inRanges table n = true := by
  induction table generalizing small with
  | nil =>
    obtain rfl : small = [] := h
    exact hn
  | cons q table ih =>
    unfold inRanges at hn ⊢
    rw [List.any_cons, Bool.or_eq_true]
    obtain ⟨r, hr, hrn⟩ := List.any_eq_true.1 hn
    rw [← List.takeWhile_append_dropWhile (p := fun r => q.1 ≤ r.1 && r.2 ≤ q.2) (l := small)] at hr
    rcases List.mem_append.1 hr with hr | hr
    · have hq := List.all_eq_true.1 List.all_takeWhile r hr
      simp only [Bool.and_eq_true, decide_eq_true_eq] at hq hrn ⊢
      exact Or.inl (by omega)
    · exact Or.inr (ih h (List.any_eq_true.2 ⟨r, hr, hrn⟩))

theorem isWordChar_of_isDecimalDigit {c : Char} (h : isDecimalDigit c = true) :
    isWordChar c = true := by
  unfold isDecimalDigit at h
  unfold isWordChar
  by_cases hc : c.toNat < 128
  · rw [if_pos hc] at h ⊢
    simp [Char.isAlphanum, h]
  · rw [if_neg hc] at h ⊢
    exact inRanges_of_uncovered (by decide +kernel) h

theorem noDigit_of_all {y : List Char} (h : (y.all fun c => !isDecimalDigit c) = true) :
    ∀ c ∈ y, isDecimalDigit c = false :=
  fun c hc => Bool.not_eq_true' _ ▸ List.all_eq_true.1 h c hc

end Rebadge.Text

namespace Rebadge.Version

open Text (isDecimalDigit isWordChar)

/-! ## The parts of a local version -/

theorem number?_eq_some {s ds rest : List Char} (h : number? s = some (ds, rest)) :
    s = ds ++ rest ∧ ds ≠ [] ∧ ∀ c ∈ ds, isDecimalDigit c = true := by
  simp only [number?, List.isEmpty_iff] at h
  split at h
  · exact absurd h (by simp)
  · next hne =>
    simp only [Option.some.injEq, Prod.mk.injEq] at h
    obtain ⟨rfl, rfl⟩ := h
    exact ⟨List.takeWhile_append_dropWhile.symm, hne, List.all_eq_true.1 List.all_takeWhile⟩

/-- The characters of a development version. -/
def isVersionChar (c : Char) : Bool := isDecimalDigit c || ['.', 'd', 'e', 'v'].contains c

theorem devVersion?_eq_some {s base rest : List Char} (h : devVersion? s = some (base, rest)) :
    s = base ++ rest ∧ '.' ∈ base ∧ ∀ c ∈ base, isVersionChar c = true := by
  simp only [devVersion?, Option.bind_eq_bind, Option.bind_eq_some_iff, Prod.exists] at h
  obtain ⟨major, s₁, h₁, s₂, h₂, minor, s₃, h₃, s₄, h₄, patch, s₅, h₅, s₆, h₆, dev, s₇, h₇, h⟩ := h
  simp only [Option.pure_def, Option.some.injEq, Prod.mk.injEq] at h
  obtain ⟨rfl, rfl⟩ := h
  obtain ⟨rfl, -, hmajor⟩ := number?_eq_some h₁
  obtain ⟨rfl, -, hminor⟩ := number?_eq_some h₃
  obtain ⟨rfl, -, hpatch⟩ := number?_eq_some h₅
  obtain ⟨rfl, -, hdev⟩ := number?_eq_some h₇
  obtain rfl := List.isPrefixOf?_eq_some_iff_append_eq.1 h₂
  obtain rfl := List.isPrefixOf?_eq_some_iff_append_eq.1 h₄
  obtain rfl := List.isPrefixOf?_eq_some_iff_append_eq.1 h₆
  refine ⟨by simp, by simp, ?_⟩
  intro c hc
  unfold isVersionChar
  simp only [List.mem_append, List.mem_cons] at hc
  rcases hc with ((hc | rfl | hc) | rfl | hc) | rfl | rfl | rfl | rfl | hc
  · simp [hmajor c hc]
  · decide
  · simp [hminor c hc]
  · decide
  · simp [hpatch c hc]
  · decide
  · decide
  · decide
  · decide
  · simp [hdev c hc]

/-- A local version that starts a text is its base, a plus and its label. -/
theorem localVersion?_eq_some {s : List Char} {m : LocalVersion} (h : localVersion? s = some m) :
    (∃ rest, s = m.base ++ '+' :: (m.label ++ rest)) ∧ '.' ∈ m.base ∧
      (∀ c ∈ m.base, isVersionChar c = true) ∧ ∀ c ∈ m.label, isWordChar c = true := by
  simp only [localVersion?, Option.bind_eq_bind, Option.bind_eq_some_iff, Prod.exists] at h
  obtain ⟨base, s₁, h₁, s₂, h₂, h⟩ := h
  split at h
  · exact absurd h (by simp)
  · obtain rfl := Option.some.inj h
    obtain ⟨rfl, hdot, hbase⟩ := devVersion?_eq_some h₁
    obtain rfl := List.isPrefixOf?_eq_some_iff_append_eq.1 h₂
    refine ⟨⟨s₂.dropWhile isWordChar, ?_⟩, hdot, hbase, List.all_eq_true.1 List.all_takeWhile⟩
    rw [List.takeWhile_append_dropWhile, List.singleton_append]

theorem length_le_of_localVersion? {s : List Char} {m : LocalVersion}
    (h : localVersion? s = some m) : m.length ≤ s.length := by
  obtain ⟨⟨rest, rfl⟩, -⟩ := localVersion?_eq_some h
  simp only [LocalVersion.length, List.length_append, List.length_cons]
  omega

/-! ## One step of a cut -/

theorem stripFrom_nil (n : Nat) : stripFrom n [] = [] := by
  cases n <;> rfl

theorem stripFrom_none {c : Char} {s : List Char} (h : localVersion? (c :: s) = none) :
    stripFrom 0 (c :: s) = c :: stripFrom 0 s := by
  rw [stripFrom, h]

/-- Of a local version its base is left, and the cut goes on behind it. -/
theorem stripFrom_some {c : Char} {s : List Char} {m : LocalVersion}
    (h : localVersion? (c :: s) = some m) :
    stripFrom 0 (c :: s) = m.base ++ stripFrom 0 (s.drop (m.length - 1)) := by
  rw [stripFrom, h, ← stripFrom_eq_drop]

theorem drop_of_localVersion? {c : Char} {s rest : List Char} {m : LocalVersion}
    (h : c :: s = m.base ++ '+' :: (m.label ++ rest)) : s.drop (m.length - 1) = rest := by
  have hdrop : (c :: s).drop m.length = rest := by
    rw [h, ← List.cons_append, ← List.append_assoc]
    exact List.drop_left' (by rw [LocalVersion.length, List.length_append, List.length_cons]; omega)
  have hlen : m.length = m.length - 1 + 1 := by
    unfold LocalVersion.length
    omega
  rwa [hlen, List.drop_succ_cons] at hdrop

/-- What holds of the empty text and passes on before a character that is kept and before a local
version that is cut holds of every text. -/
theorem cut_induction {motive : List Char → Prop} (nil : motive [])
    (keep : ∀ c s, localVersion? (c :: s) = none → motive s → motive (c :: s))
    (cut : ∀ c s m, localVersion? (c :: s) = some m → motive (s.drop (m.length - 1)) →
      motive (c :: s))
    (s : List Char) : motive s := by
  induction hn : s.length using Nat.strongRecOn generalizing s with
  | ind n ih =>
    cases s with
    | nil => exact nil
    | cons c s =>
      rw [List.length_cons] at hn
      cases hm : localVersion? (c :: s) with
      | none => exact keep c s hm (ih s.length (by omega) s rfl)
      | some m => exact cut c s m hm (ih _ (by rw [List.length_drop]; omega) _ rfl)

/-! ## Places that end every local version -/

/-- No development version that started before the text goes on in it. -/
structure EndsVersion (y : List Char) : Prop where
  digit : ∀ c ∈ y.head?, isDecimalDigit c = false
  word : ∀ c ∈ y.head?, isWordChar c = false
  number : (['.'].isPrefixOf? y).bind number? = none
  dev : ['.', 'd', 'e', 'v'].isPrefixOf? y = none

/-- No local version does either. -/
structure Ends (y : List Char) : Prop extends EndsVersion y where
  plus : ['+'].isPrefixOf? y = none

theorem takeWhile_append_of_head {p : Char → Bool} {y : List Char} (hy : ∀ c ∈ y.head?, p c = false)
    (x : List Char) : (x ++ y).takeWhile p = x.takeWhile p ∧
    (x ++ y).dropWhile p = x.dropWhile p ++ y := by
  induction x with
  | nil =>
    cases y with
    | nil => simp
    | cons c y =>
      have hc := hy c rfl
      simp [hc]
  | cons c x ih =>
    by_cases hc : p c = true
    · simpa [hc] using ih
    · simp [hc]

/-- A step of the search meets nothing new when `y` follows. -/
def Blind {α : Type} (y : List Char) (f : List Char → Option (α × List Char)) : Prop :=
  ∀ x, f (x ++ y) = (f x).map fun r => (r.1, r.2 ++ y)

theorem blind_number {y : List Char} (h : EndsVersion y) : Blind y number? := by
  intro x
  obtain ⟨htake, hdrop⟩ := takeWhile_append_of_head h.digit x
  unfold number?
  rw [htake, hdrop]
  by_cases hx : (x.takeWhile isDecimalDigit).isEmpty = true
  · simp [hx]
  · simp [hx]

/-- A fixed word is found before `y` or not at all, if it is not found across. -/
theorem isPrefixOf?_cons (p c : Char) (pat s : List Char) :
    (p :: pat).isPrefixOf? (c :: s) = if p == c then pat.isPrefixOf? s else none := rfl

theorem isPrefixOf?_append_of_ends {pat y : List Char}
    (h : ∀ k < pat.length, (pat.drop k).isPrefixOf? y = none) (x : List Char) :
    pat.isPrefixOf? (x ++ y) = (pat.isPrefixOf? x).map (· ++ y) := by
  induction pat generalizing x with
  | nil => rfl
  | cons p pat ih =>
    cases x with
    | nil =>
      have h0 := h 0 (by simp)
      rw [List.drop_zero] at h0
      rw [List.nil_append, h0]
      rfl
    | cons c x =>
      have hx := ih (fun k hk => h (k + 1) (by simpa using hk)) x
      rw [List.cons_append, isPrefixOf?_cons, isPrefixOf?_cons]
      by_cases hpc : (p == c) = true
      · rw [if_pos hpc, if_pos hpc, hx]
      · rw [if_neg hpc, if_neg hpc]
        rfl

theorem isPrefixOf?_eq_none_of_head {p : Char} {pat y : List Char} {q : Char → Bool}
    (hy : ∀ c ∈ y.head?, q c = false) (hp : q p = true) : (p :: pat).isPrefixOf? y = none := by
  cases y with
  | nil => rfl
  | cons c y =>
    rw [isPrefixOf?_cons, if_neg]
    intro hpc
    rw [beq_iff_eq] at hpc
    subst hpc
    simp [hp] at hy

/-- A number behind a dot. -/
def dotNumber? (s : List Char) : Option (List Char × List Char) :=
  (['.'].isPrefixOf? s).bind number?

/-- A number behind `.dev`. -/
def devNumber? (s : List Char) : Option (List Char × List Char) :=
  (['.', 'd', 'e', 'v'].isPrefixOf? s).bind number?

theorem blind_dotNumber {y : List Char} (h : EndsVersion y) : Blind y dotNumber? := by
  intro x
  unfold dotNumber?
  cases x with
  | nil => rw [List.nil_append, h.number]; rfl
  | cons c x =>
    rw [List.cons_append, isPrefixOf?_cons, isPrefixOf?_cons]
    by_cases hc : ('.' == c) = true
    · rw [if_pos hc, if_pos hc]
      exact blind_number h x
    · rw [if_neg hc, if_neg hc]
      rfl

theorem blind_devNumber {y : List Char} (h : EndsVersion y) : Blind y devNumber? := by
  intro x
  unfold devNumber?
  rw [isPrefixOf?_append_of_ends]
  · cases (['.', 'd', 'e', 'v'].isPrefixOf? x) with
    | none => rfl
    | some r => exact blind_number h r
  · intro k hk
    match k, hk with
    | 0, _ => exact h.dev
    | 1, _ => exact isPrefixOf?_eq_none_of_head h.word (by decide)
    | 2, _ => exact isPrefixOf?_eq_none_of_head h.word (by decide)
    | 3, _ => exact isPrefixOf?_eq_none_of_head h.word (by decide)

theorem Blind.bind {α β : Type} {y : List Char} {f : List Char → Option (α × List Char)}
    {g : α → List Char → Option (β × List Char)} (hf : Blind y f) (hg : ∀ a, Blind y (g a)) :
    Blind y fun s => (f s).bind fun r => g r.1 r.2 := by
  intro x
  show (f (x ++ y)).bind _ = ((f x).bind _).map _
  rw [hf x]
  cases f x with
  | none => rfl
  | some r => exact hg r.1 r.2

theorem blind_some {α : Type} {y : List Char} (a : α) : Blind y fun s => some (a, s) := fun _ => rfl

theorem blind_devVersion {y : List Char} (h : EndsVersion y) : Blind y devVersion? := by
  have hsteps := (blind_number h).bind fun major => (blind_dotNumber h).bind fun minor =>
    (blind_dotNumber h).bind fun patch => (blind_devNumber h).bind fun dev =>
      blind_some (y := y) (major ++ '.' :: minor ++ '.' :: patch ++ '.' :: 'd' :: 'e' :: 'v' :: dev)
  intro x
  have hx := hsteps x
  simp only [dotNumber?, devNumber?, Option.bind_assoc] at hx
  simpa only [devVersion?, Option.bind_eq_bind, Option.bind_assoc, Option.pure_def] using hx

theorem localVersion?_append {y : List Char} (h : Ends y) (x : List Char) :
    localVersion? (x ++ y) = localVersion? x := by
  unfold localVersion?
  rw [blind_devVersion h.toEndsVersion x]
  cases devVersion? x with
  | none => rfl
  | some r =>
    show (['+'].isPrefixOf? (r.2 ++ y)).bind _ = (['+'].isPrefixOf? r.2).bind _
    rw [isPrefixOf?_append_of_ends]
    · cases ['+'].isPrefixOf? r.2 with
      | none => rfl
      | some l =>
        show (if _ then _ else _) = (if _ then _ else _)
        rw [(takeWhile_append_of_head h.word l).1]
    · intro k hk
      obtain rfl : k = 0 := by simpa using hk
      exact h.plus

/-- **Cutting beside an end.** What stands before such a place and what starts there are cut by
themselves. -/
theorem stripFrom_append {y : List Char} (h : Ends y) (x : List Char) :
    stripFrom 0 (x ++ y) = stripFrom 0 x ++ stripFrom 0 y := by
  induction x using cut_induction with
  | nil => rfl
  | keep c x hm ih =>
    have hm' : localVersion? (c :: (x ++ y)) = none := (localVersion?_append h (c :: x)).trans hm
    rw [List.cons_append, stripFrom_none hm', stripFrom_none hm, ih, List.cons_append]
  | cut c x m hm ih =>
    have hm' : localVersion? (c :: (x ++ y)) = some m := (localVersion?_append h (c :: x)).trans hm
    have hlen := length_le_of_localVersion? hm
    rw [List.length_cons] at hlen
    rw [List.cons_append, stripFrom_some hm', stripFrom_some hm,
      List.drop_append_of_le_length (by omega), ih, List.append_assoc]

/-! ## Separators and dots -/

theorem ends_of_separator {s : Char} (hword : isWordChar s = false)
    (hdot : s ≠ '.') (hplus : s ≠ '+') (b : List Char) : Ends (s :: b) where
  digit := by
    intro c hc
    obtain rfl : s = c := by simpa using hc
    rw [← Bool.not_eq_true]
    intro hd
    simp [Text.isWordChar_of_isDecimalDigit hd] at hword
  word := by
    intro c hc
    obtain rfl : s = c := by simpa using hc
    exact hword
  plus := by simp [isPrefixOf?_cons, hplus.symm]
  number := by simp [isPrefixOf?_cons, hdot.symm]
  dev := by simp [isPrefixOf?_cons, hdot.symm]

/-- A dot ends every local version if neither a number nor `dev` follows. -/
theorem ends_of_dot {b : List Char} (hb : ∀ c ∈ b.head?, isDecimalDigit c = false)
    (hdev : ['d', 'e', 'v'].isPrefixOf? b = none) : Ends ('.' :: b) where
  digit := by simp; decide
  word := by simp; decide
  plus := rfl
  number := by
    show number? b = none
    have hnil : b.takeWhile isDecimalDigit = [] := by
      cases b with
      | nil => rfl
      | cons c b => simp [hb c rfl]
    simp [number?, hnil]
  dev := hdev

theorem localVersion?_eq_none_of_ends {y : List Char} (h : Ends y) : localVersion? y = none := by
  rw [← List.nil_append y, localVersion?_append h]
  rfl

/-- **Cutting beside a separator.** The texts on both sides of a separator are cut by themselves. -/
theorem stripFrom_append_separator {s : Char} (hword : isWordChar s = false) (hdot : s ≠ '.')
    (hplus : s ≠ '+') (a b : List Char) :
    stripFrom 0 (a ++ s :: b) = stripFrom 0 a ++ s :: stripFrom 0 b := by
  have h := ends_of_separator hword hdot hplus b
  rw [stripFrom_append h, stripFrom_none (localVersion?_eq_none_of_ends h)]

/-! ## What is left of a text -/

/-- A front in which no local version starts stays as it is, and what follows is cut by itself. -/
theorem stripFrom_append_of_none {front rest : List Char}
    (h : ∀ s, s ≠ [] → s <:+ front → localVersion? (s ++ rest) = none) :
    stripFrom 0 (front ++ rest) = front ++ stripFrom 0 rest := by
  induction front with
  | nil => rfl
  | cons c front ih =>
    have hnone := h _ (List.cons_ne_nil c front) List.suffix_rfl
    rw [List.cons_append] at hnone ⊢
    rw [stripFrom_none hnone, ih fun s hne hs => h s hne (hs.trans (List.suffix_cons c front)),
      List.cons_append]

theorem stripFrom_of_none {s : List Char} (h : ∀ z, z <:+ s → localVersion? z = none) :
    stripFrom 0 s = s := by
  have happend := @stripFrom_append_of_none s [] fun z _ hz => by
    rw [List.append_nil]
    exact h z hz
  rwa [stripFrom, List.append_nil] at happend

theorem stripFrom_eq_self {s : List Char} (h : '.' ∉ s) : stripFrom 0 s = s := by
  refine stripFrom_of_none fun z hz => Option.eq_none_iff_forall_not_mem.2 fun m hm => ?_
  obtain ⟨⟨rest, hrest⟩, hdot, -⟩ := localVersion?_eq_some hm
  exact h (hz.subset (hrest ▸ List.mem_append_left _ hdot))

theorem mem_of_mem_stripFrom {c : Char} {s : List Char} (h : c ∈ stripFrom 0 s) : c ∈ s := by
  induction s using cut_induction with
  | nil => exact h
  | keep d s hm ih =>
    rw [stripFrom_none hm] at h
    rcases List.mem_cons.1 h with rfl | h
    · exact List.mem_cons_self
    · exact List.mem_cons_of_mem d (ih h)
  | cut d s m hm ih =>
    rw [stripFrom_some hm] at h
    rcases List.mem_append.1 h with h | h
    · obtain ⟨⟨rest, hs⟩, -⟩ := localVersion?_eq_some hm
      rw [hs]
      exact List.mem_append_left _ h
    · exact List.mem_cons_of_mem d (List.mem_of_mem_drop (ih h))

theorem stripFrom_eq_nil_iff {s : List Char} : stripFrom 0 s = [] ↔ s = [] := by
  cases s with
  | nil => rw [stripFrom_nil]
  | cons c s =>
    cases hm : localVersion? (c :: s) with
    | none => simp [stripFrom_none hm]
    | some m =>
      obtain ⟨-, hdot, -⟩ := localVersion?_eq_some hm
      simp [stripFrom_some hm, List.ne_nil_of_mem hdot]

/-! ## Cutting in texts -/

theorem toList_stripLocalVersion (s : String) :
    (stripLocalVersion s).toList = stripFrom 0 s.toList :=
  String.toList_ofList

theorem stripLocalVersion_append {y : String} (h : Ends y.toList) (hself : stripLocalVersion y = y)
    (x : String) : stripLocalVersion (x ++ y) = stripLocalVersion x ++ y := by
  rw [← String.toList_inj, String.toList_append, toList_stripLocalVersion, toList_stripLocalVersion,
    String.toList_append, stripFrom_append h, ← toList_stripLocalVersion y, hself]

theorem stripLocalVersion_append_separator {s : Char} (hword : isWordChar s = false)
    (hdot : s ≠ '.') (hplus : s ≠ '+') (a b : String) :
    stripLocalVersion (a ++ s.toString ++ b) = stripLocalVersion a ++ s.toString ++
    stripLocalVersion b := by
  rw [← String.toList_inj]
  simp only [toList_stripLocalVersion, String.toList_append, Char.toString,
    String.toList_singleton, List.append_assoc]
  exact stripFrom_append_separator hword hdot hplus _ _

theorem stripLocalVersion_append_dash (a b : String) :
    stripLocalVersion (a ++ "-" ++ b) = stripLocalVersion a ++ "-" ++ stripLocalVersion b :=
  stripLocalVersion_append_separator (s := '-') (by decide) (by decide) (by decide) a b

end Rebadge.Version
