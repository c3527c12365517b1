import Mathlib.Data.List.Infix
import Rebadge.Proofs.Text.Separator
import Rebadge.Release

/-!
# The links of a page

A page is text with links in it. It is read from left to right: up to the first link that opens,
behind that one up to the next, and so on to the end (`reads_iff`). Where the mark of a link stands
only in front of the links that were put there, these links are the ones that are read
(`reads_written`).
-/

namespace Rebadge.Release

/-! ## Where links open -/

/-- A link with the reference `ref` starts the text, and `rest` follows it. -/
def OpensWith (s ref rest : List Char) : Prop :=
  ref ≠ [] ∧ '"' ∉ ref ∧ s = linkMark ++ (ref ++ '"' :: rest)

/-- A link starts the text. -/
def Opens (s : List Char) : Prop := ∃ ref rest, OpensWith s ref rest

/-- No link opens inside the gap, when `rest` follows it. -/
def NoneOpensIn (gap rest : List Char) : Prop := ∀ t, t ≠ [] → t <:+ gap → ¬ Opens (t ++ rest)

variable {s t ref rest gap front : List Char} {refs : List String} {c : Char}

theorem takeWhile_quote (href : '"' ∉ ref) : (ref ++ '"' :: rest).takeWhile (· != '"') = ref := by
  rw [List.takeWhile_append_of_pos, List.takeWhile_cons_of_neg (by simp), List.append_nil]
  intro c hc
  rw [bne_iff_ne]
  rintro rfl
  exact href hc

/-- The search finds a reference exactly if a link with it starts the text. -/
theorem linkAt?_eq_some : linkAt? s = some ref ↔ ∃ rest, OpensWith s ref rest := by
  unfold linkAt?
  constructor
  · intro h
    cases hmark : linkMark.isPrefixOf? s with
    | none => simp [hmark] at h
    | some after =>
      rw [hmark] at h
      simp only [Option.ite_none_left_eq_some, Bool.or_eq_true, List.isEmpty_iff,
        Bool.not_eq_true', not_or, List.contains_eq_mem, decide_eq_false_iff_not, not_not,
        Option.some.injEq] at h
      obtain ⟨⟨hne, hquote⟩, rfl⟩ := h
      obtain ⟨before, rest, rfl, hbefore⟩ := List.eq_append_cons_of_mem hquote
      rw [takeWhile_quote hbefore] at hne ⊢
      exact ⟨rest, hne, hbefore, (List.isPrefixOf?_eq_some_iff_append_eq.1 hmark).symm⟩
  · rintro ⟨rest, hne, hquote, rfl⟩
    rw [List.isPrefixOf?_eq_some_iff_append_eq.2 rfl]
    simp only [takeWhile_quote hquote]
    simp [hne]

theorem linkAt?_eq_none : linkAt? s = none ↔ ¬ Opens s := by
  rw [Option.eq_none_iff_forall_ne_some]
  simp only [ne_eq, linkAt?_eq_some, Opens, not_exists]

theorem noneOpensIn_nil (rest : List Char) : NoneOpensIn [] rest :=
  Chars.forall_positions_nil (P := fun s => ¬ Opens s) rest

theorem noneOpensIn_cons :
    NoneOpensIn (c :: gap) rest ↔ ¬ Opens (c :: gap ++ rest) ∧ NoneOpensIn gap rest :=
  Chars.forall_positions_cons (P := fun s => ¬ Opens s)

/-! ## Reading a page -/

/-- A page and the references of its links, as they are met from left to right. -/
inductive Reads : List Char → List String → Prop where
  | done {gap : List Char} (hgap : NoneOpensIn gap []) : Reads gap []
  | next {gap s ref rest : List Char} {refs : List String} (hgap : NoneOpensIn gap s)
    (hlink : OpensWith s ref rest) (hrest : Reads rest refs) : Reads (gap ++ s)
    (.ofList ref :: refs)

theorem linksFrom_skip (n : Nat) (s : List Char) : linksFrom n s = linksFrom 0 (s.drop n) := by
  induction n generalizing s with
  | zero => rfl
  | succ n ih =>
    cases s with
    | nil => rfl
    | cons c s => exact ih s

theorem NoneOpensIn.linksFrom (h : NoneOpensIn gap rest) :
    linksFrom 0 (gap ++ rest) = linksFrom 0 rest := by
  induction gap with
  | nil => rfl
  | cons c gap ih =>
    obtain ⟨hopen, hgap⟩ := noneOpensIn_cons.1 h
    have hnone := linkAt?_eq_none.2 hopen
    rw [List.cons_append] at hnone ⊢
    rw [Release.linksFrom, hnone]
    exact ih hgap

theorem OpensWith.linksFrom (h : OpensWith s ref rest) :
    linksFrom 0 s = .ofList ref :: linksFrom 0 rest := by
  have hlink := linkAt?_eq_some.2 ⟨rest, h⟩
  obtain ⟨-, -, rfl⟩ := h
  have hcons : ∀ t, linkMark ++ t = 'h' :: (linkMark.drop 1 ++ t) := fun _ => rfl
  rw [hcons] at hlink ⊢
  rw [Release.linksFrom, hlink]
  have hdrop : (linkMark.drop 1 ++ (ref ++ '"' :: rest)).drop (linkMark.length + ref.length) =
      rest := by
    rw [show linkMark.drop 1 ++ (ref ++ '"' :: rest) = linkMark.drop 1 ++ ref ++
      ['"'] ++ rest by simp]
    refine List.drop_left' ?_
    simp [linkMark]
    omega
  show String.ofList ref :: Release.linksFrom _ _ = _
  rw [linksFrom_skip, hdrop]

theorem Reads.cons (hopen : ¬ Opens (c :: s)) (h : Reads s refs) : Reads (c :: s) refs := by
  cases h with
  | done hgap => exact .done (noneOpensIn_cons.2 ⟨by rwa [List.append_nil], hgap⟩)
  | @next gap s ref rest refs hgap hlink hrest =>
    exact Reads.next (noneOpensIn_cons.2 ⟨hopen, hgap⟩) hlink hrest

theorem reads_linksFrom (s : List Char) : Reads s (linksFrom 0 s) := by
  -- a link is longer than one character, so the induction is on the length
  induction hlen : s.length using Nat.strong_induction_on generalizing s with
  | _ n ih =>
    cases s with
    | nil => exact .done (noneOpensIn_nil [])
    | cons c s =>
      by_cases hopen : Opens (c :: s)
      · obtain ⟨ref, rest, hlink⟩ := hopen
        have hshort : rest.length < n := by
          rw [← hlen, hlink.2.2]
          simp
          omega
        rw [hlink.linksFrom, ← List.nil_append (c :: s)]
        exact .next (noneOpensIn_nil _) hlink (ih _ hshort rest rfl)
      · have hgap : NoneOpensIn [c] s := noneOpensIn_cons.2 ⟨hopen, noneOpensIn_nil s⟩
        have hlinks : linksFrom 0 (c :: s) = linksFrom 0 s := hgap.linksFrom
        rw [hlinks]
        exact (ih s.length (by simp [← hlen]) s rfl).cons hopen

/-- **The links that are read** are those from left to right. -/
theorem reads_iff : Reads s refs ↔ refs = linksFrom 0 s := by
  constructor
  · intro h
    induction h with
    | @done gap hgap =>
      have hnil := hgap.linksFrom
      rw [List.append_nil] at hnil
      exact hnil.symm
    | next hgap hlink _ ih => rw [hgap.linksFrom, hlink.linksFrom, ih]
  · rintro rfl
    exact reads_linksFrom s

/-! ## Pages with given links -/

/-- The number of positions at which `pat` stands in the text. -/
def occurrences (pat s : List Char) : Nat := s.tails.countP (pat.isPrefixOf ·)

/-- Links with texts behind them. -/
def writeLinks (links : List (List Char × List Char)) : List Char :=
  links.flatMap fun l => linkMark ++ (l.1 ++ '"' :: l.2)

theorem writeLinks_cons (l : List Char × List Char) (links : List (List Char × List Char)) :
    writeLinks (l :: links) = linkMark ++ (l.1 ++ '"' :: (l.2 ++ writeLinks links)) := by
  simp [writeLinks]

theorem occurrences_cons (pat : List Char) (c : Char) (s : List Char) :
    occurrences pat (c :: s) = occurrences pat s + if pat.isPrefixOf (c :: s) then 1 else 0 := by
  unfold occurrences
  rw [List.tails_cons, List.countP_cons]

theorem occurrences_le_append (pat s t : List Char) :
    occurrences pat t ≤ occurrences pat (s ++ t) := by
  induction s with
  | nil => exact le_rfl
  | cons c s ih =>
    rw [List.cons_append, occurrences_cons]
    omega

/-- Where the mark stands nowhere in front of the rest, no link opens there. -/
theorem noneOpensIn_of_occurrences
    (h : occurrences linkMark (gap ++ rest) = occurrences linkMark rest) :
    NoneOpensIn gap rest := by
  induction gap with
  | nil => exact noneOpensIn_nil rest
  | cons c gap ih =>
    have hle := occurrences_le_append linkMark gap rest
    rw [List.cons_append, occurrences_cons] at h
    refine noneOpensIn_cons.2 ⟨?_, ih (by omega)⟩
    rintro ⟨ref, after, -, -, hlink⟩
    have hmark : linkMark.isPrefixOf (c :: (gap ++ rest)) = true := by
      rw [List.isPrefixOf_iff_prefix]
      exact ⟨_, hlink.symm⟩
    rw [if_pos hmark] at h
    omega

theorem occurrences_link (ref rest : List Char) :
    occurrences linkMark rest + 1 ≤ occurrences linkMark (linkMark ++ (ref ++ '"' :: rest)) := by
  have hle := occurrences_le_append linkMark (linkMark.drop 1 ++ ref ++ ['"']) rest
  have hcons : linkMark ++ (ref ++ '"' :: rest) = 'h' ::
      (linkMark.drop 1 ++ ref ++ ['"'] ++ rest) := by
    simp [linkMark]
  have hmark : linkMark.isPrefixOf (linkMark ++ (ref ++ '"' :: rest)) = true := by
    rw [List.isPrefixOf_iff_prefix]
    exact ⟨_, rfl⟩
  rw [hcons] at hmark ⊢
  rw [occurrences_cons, if_pos hmark]
  omega

theorem length_le_occurrences (links : List (List Char × List Char)) :
    links.length ≤ occurrences linkMark (writeLinks links) := by
  induction links with
  | nil => exact Nat.zero_le _
  | cons l links ih =>
    have hle := occurrences_le_append linkMark l.2 (writeLinks links)
    have hlink := occurrences_link l.1 (l.2 ++ writeLinks links)
    rw [writeLinks_cons, List.length_cons]
    omega

/-- **A page is read as it was written**: where the mark stands nowhere but in front of the links,
these are read. -/
theorem reads_written {links : List (List Char × List Char)}
    (hrefs : ∀ l ∈ links, l.1 ≠ [] ∧ '"' ∉ l.1)
    (hcount : occurrences linkMark (front ++ writeLinks links) = links.length) :
    Reads (front ++ writeLinks links) (links.map fun l => .ofList l.1) := by
  induction links generalizing front with
  | nil =>
    have hnone : NoneOpensIn front [] := noneOpensIn_of_occurrences hcount
    simpa [writeLinks] using Reads.done hnone
  | cons l links ih =>
    obtain ⟨href, hrefs⟩ := List.forall_mem_cons.1 hrefs
    have hfront := occurrences_le_append linkMark front (writeLinks (l :: links))
    have hgap := occurrences_le_append linkMark l.2 (writeLinks links)
    have hlink := occurrences_link l.1 (l.2 ++ writeLinks links)
    have hleast := length_le_occurrences links
    rw [writeLinks_cons] at hcount hfront ⊢
    rw [List.length_cons] at hcount
    exact .next (noneOpensIn_of_occurrences (by omega)) ⟨href.1, href.2, rfl⟩ (ih hrefs (by omega))

end Rebadge.Release
