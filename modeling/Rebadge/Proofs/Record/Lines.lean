import Rebadge.Proofs.Csv.Reading
import Rebadge.Proofs.Digest
import Rebadge.Proofs.Record.Renaming
import Rebadge.Record

/-!
# The lines of a record

The record of the fork is made line by line (`toList_forFork`). The line of a replaced file holds
its path, its digest and its size; digests and sizes hold no character that the renaming changes or
that a reader of rows takes for something else (`isPlain`), so they are read back as they were
written.
-/

namespace Rebadge.Record

variable {c : Config}

/-! ## Sizes -/

theorem decimalValue?_eq {s : List Char} (h : ∀ x ∈ s, x.isDigit = true) (n : Nat) :
    decimalValue? n s = some (Nat.ofDigitChars 10 s n) := by
  induction s generalizing n with
  | nil => simp [decimalValue?]
  | cons x s ih =>
    rw [decimalValue?, if_pos (h x (by simp)), ih fun y hy => h y (by simp [hy]),
      Nat.ofDigitChars_cons]
    rfl

theorem isDigit_of_decimalValue? {s : List Char} {n m : Nat} (h : decimalValue? n s = some m) :
    ∀ x ∈ s, x.isDigit = true := by
  induction s generalizing n with
  | nil => simp
  | cons x s ih =>
    rw [decimalValue?] at h
    by_cases hx : x.isDigit = true
    · rw [if_pos hx] at h
      intro y hy
      rcases List.mem_cons.1 hy with rfl | hy
      · exact hx
      · exact ih h y hy
    · rw [if_neg hx] at h
      exact absurd h (by simp)

theorem isDigit_of_mem_toString {n : Nat} {x : Char} (h : x ∈ (toString n).toList) :
    x.isDigit = true := by
  rw [Nat.toString_eq_repr, Nat.toList_repr] at h
  exact Nat.isDigit_of_mem_toDigits (by decide) (by decide) h

theorem toString_ne_nil (n : Nat) : (toString n).toList ≠ [] := by
  rw [Nat.toString_eq_repr, Nat.toList_repr]
  exact Nat.toDigits_ne_nil

theorem size?_eq_some {s : List Char} {n : Nat} : size? s = some n ↔
    (if s.head? = some '+' then s.tail else s) ≠ [] ∧
      decimalValue? 0 (if s.head? = some '+' then s.tail else s) = some n ∧
      n < 0x10000000000000000 := by
  unfold size?
  generalize (if s.head? = some '+' then s.tail else s) = digits
  by_cases hempty : digits = []
  · simp [hempty]
  · cases hvalue : decimalValue? 0 digits with
    | none => simp [hempty, hvalue]
    | some m =>
      by_cases hm : m < 0x10000000000000000
      · simpa [hempty, hvalue, hm] using fun h : m = n => h ▸ hm
      · simp only [List.isEmpty_iff, hempty, if_false, hvalue, Option.bind_eq_bind,
        Option.bind_some, if_neg hm]
        simpa [hempty] using fun h : m = n => h ▸ Nat.le_of_not_lt hm

theorem size?_digits {digits : List Char} (hdigit : ∀ x ∈ digits, x.isDigit = true)
    (hne : digits ≠ []) (hlt : Nat.ofDigitChars 10 digits 0 < 0x10000000000000000) :
    size? digits = some (Nat.ofDigitChars 10 digits 0) ∧
    size? ('+' :: digits) = some (Nat.ofDigitChars 10 digits 0) := by
  have hplus : digits.head? ≠ some '+' := by
    intro hhead
    exact absurd (hdigit _ (List.mem_of_head? hhead)) (by decide)
  have hvalue := decimalValue?_eq hdigit 0
  rw [size?_eq_some, size?_eq_some, if_neg hplus]
  exact ⟨⟨hne, hvalue, hlt⟩, hne, hvalue, hlt⟩

theorem ofDigitChars_toString (n : Nat) : Nat.ofDigitChars 10 (toString n).toList 0 = n := by
  rw [Nat.toString_eq_repr, Nat.toList_repr, Nat.ofDigitChars_ten_toDigits]

theorem size?_toString {n : Nat} (h : n < 0x10000000000000000) :
    size? (toString n).toList = some n := by
  have hread := (size?_digits (fun x hx => isDigit_of_mem_toString hx) (toString_ne_nil n)
    (by rwa [ofDigitChars_toString])).1
  rwa [ofDigitChars_toString] at hread

theorem mem_of_size? {s : List Char} {n : Nat} (h : size? s = some n) {x : Char} (hx : x ∈ s) :
    x.isDigit = true ∨ x = '+' := by
  obtain ⟨-, hvalue, -⟩ := size?_eq_some.1 h
  by_cases hplus : s.head? = some '+'
  · rw [if_pos hplus] at hvalue
    cases s with
    | nil => exact absurd hx (by simp)
    | cons y s =>
      rcases List.mem_cons.1 hx with rfl | hx
      · exact Or.inr (by simpa using hplus)
      · exact Or.inl (isDigit_of_decimalValue? hvalue x hx)
  · rw [if_neg hplus] at hvalue
    exact Or.inl (isDigit_of_decimalValue? hvalue x hx)

/-! ## Plain fields -/

/-- The characters of digests and sizes. -/
def isPlain (x : Char) : Bool := Base64.isStandardChar x || x == '='

/-- No such character matters to the renaming or to a reader of rows. -/
theorem ne_of_isPlain {x y : Char} (hx : isPlain x = true) (hy : isPlain y = false) : x ≠ y := by
  intro h
  rw [h, hy] at hx
  exact absurd hx (by simp)

theorem isPlain_of_mem_digest {content : Bytes} {x : Char}
    (h : x ∈ (Digest.ofContent content .standard).toList) : isPlain x = true := by
  rcases Digest.mem_ofContent h with h | h <;> simp [isPlain, h]

theorem isPlain_of_mem_size {n : Nat} {x : Char} (h : x ∈ (toString n).toList) :
    isPlain x = true := by
  have hx := isDigit_of_mem_toString h
  simp [isPlain, Base64.isStandardChar, Char.isAlphanum, hx]

theorem renamed_eq_self_of_isPlain {s : List Char} (h : ∀ x ∈ s, isPlain x = true) :
    renamed c s = s := by
  refine renamed_eq_self (fun hmem => ?_) fun hmem => ?_
  · exact absurd (h _ hmem) (by decide)
  · exact absurd (h _ hmem) (by decide)

/-! ## Fresh lines -/

/-- What follows the path on the line of a file. -/
def freshTail (content : Bytes) : List Char :=
  (Digest.ofContent content .standard).toList ++ ',' :: (toString content.length).toList

theorem toList_freshLine (path : String) (content : Bytes) :
    (freshLine .standard path content).toList = path.toList ++ ',' :: freshTail content := by
  simp [freshLine, freshTail]

theorem renamed_freshTail (hc : c.NamesValid) (content : Bytes) :
    renamed c (freshTail content) = freshTail content := by
  unfold freshTail
  rw [renamed_append hc (by decide), renamed_eq_self_of_isPlain fun x hx =>
    isPlain_of_mem_digest hx, renamed_eq_self_of_isPlain fun x hx => isPlain_of_mem_size hx]

theorem renamed_freshLine (hc : c.NamesValid) (path : String) (content : Bytes) :
    renamed c (freshLine .standard path content).toList =
      renamed c path.toList ++ ',' :: freshTail content := by
  rw [toList_freshLine, renamed_append hc (by decide), renamed_freshTail hc]

/-- The row of a fresh line. -/
def freshRow (path : List Char) (content : Bytes) : Csv.Row :=
  [path, (Digest.ofContent content .standard).toList, (toString content.length).toList]

/-- The entry of a file with the given content. -/
def freshEntry (path : String) (content : Bytes) : RecordEntry :=
  ⟨path, some (Digest.ofContent content .standard), some content.length⟩

theorem entry?_freshRow {path : List Char} (hpath : path ≠ []) {content : Bytes}
    (hlen : content.length < 0x10000000000000000) :
    entry? (freshRow path content) = some (freshEntry (.ofList path) content) := by
  have hdigest := Digest.ofContent_ne_empty content .standard
  show (if path = [] then none else some _) = _
  rw [if_neg hpath]
  show some (RecordEntry.mk _ (if (Digest.ofContent content .standard).toList = [] then none
    else some _) (size? (toString content.length).toList)) = _
  rw [if_neg hdigest, size?_toString hlen]
  show some (RecordEntry.mk _ (some (.ofList (Digest.ofContent content .standard).toList)) _) = _
  rw [String.ofList_toList]
  rfl

/-! ## The lines of the fork -/

theorem toList_forFork (text : String) (replaced : List (String × Bytes)) (c : Config) :
    (forFork text replaced c).toList = renamed c
      (Chars.join '\n' ((Chars.split '\n' text.toList).map
        (forkLine c.digestEncoding replaced))) := by
  unfold forFork
  rw [toList_renameAll, String.toList_ofList]

/-- The renaming works on each line by itself. -/
theorem toList_forFork_eq_join (hc : c.NamesValid) (text : String)
    (replaced : List (String × Bytes)) :
    (forFork text replaced c).toList = Chars.join '\n' ((Chars.split '\n' text.toList).map
      fun line => renamed c (forkLine c.digestEncoding replaced line)) := by
  rw [toList_forFork, renamed_join hc (by decide) (by simp [Chars.split_ne_nil]), List.map_map]
  rfl

theorem comma_not_mem_pathOf (line : List Char) : ',' ∉ pathOf line := by
  intro h
  have hall := List.all_takeWhile (p := (· != ',')) (l := line)
  rw [List.all_eq_true] at hall
  exact absurd (hall _ h) (by simp)

theorem mem_of_mem_pathOf {line : List Char} {x : Char} (h : x ∈ pathOf line) : x ∈ line :=
  (List.takeWhile_sublist _).subset h

theorem exists_eq_pathOf_append {line : List Char} (h : ',' ∈ line) :
    ∃ rest, line = pathOf line ++ ',' :: rest := by
  induction line with
  | nil => exact absurd h (by simp)
  | cons x line ih =>
    by_cases hx : x = ','
    · exact ⟨line, by simp [pathOf, hx]⟩
    · obtain ⟨rest, hrest⟩ := ih ((List.mem_cons.1 h).resolve_left (Ne.symm hx))
      refine ⟨rest, ?_⟩
      have hpath : pathOf (x :: line) = x :: pathOf line := by simp [pathOf, hx]
      rw [hpath, List.cons_append, ← hrest]

theorem pathOf_eq_self {line : List Char} (h : ',' ∉ line) : pathOf line = line := by
  induction line with
  | nil => rfl
  | cons x line ih =>
    rw [List.mem_cons, not_or] at h
    have hpath : pathOf (x :: line) = x :: pathOf line := by simp [pathOf, Ne.symm h.1]
    rw [hpath, ih h.2]

theorem pathOf_append {path : List Char} (h : ',' ∉ path) (rest : List Char) :
    pathOf (path ++ ',' :: rest) = path := by
  unfold pathOf
  have hall : ∀ x ∈ path, (x != ',') = true := by
    intro x hx
    simpa using fun heq : x = ',' => h (heq ▸ hx)
  rw [List.takeWhile_append_of_pos hall]
  simp

theorem head_split_comma (line : List Char) : (Chars.split ',' line).headD [] = pathOf line := by
  rw [List.headD_eq_head?_getD, Chars.head?_split]
  rfl

end Rebadge.Record
