import Rebadge.Proofs.Csv.Writing
import Rebadge.Proofs.Record.Lines

/-!
# Records as they are written

An entry is written as a row of three fields, and a field that is missing as nothing. A size is
written in decimal; any other text in its place is no size (`SizeField.size?_text`). Reading gives
back the entries that were written, whatever the quotes, the line ends and the blank lines
(`parse_written`).
-/

namespace Rebadge.Record

/-! ## Sizes -/

/-- Decimal digits after an optional `+`, with a value below `2 ^ 64`. -/
def IsSize (field : List Char) : Prop :=
  ∃ digits, (field = digits ∨ field = '+' :: digits) ∧ digits ≠ [] ∧
      (∀ c ∈ digits, c.isDigit = true) ∧
    Nat.ofDigitChars 10 digits 0 < UInt64.size

theorem isSize_of_size? {field : List Char} {n : Nat} (h : size? field = some n) :
    IsSize field := by
  obtain ⟨hne, hvalue, hlt⟩ := size?_eq_some.1 h
  have hdigit := isDigit_of_decimalValue? hvalue
  rw [decimalValue?_eq hdigit, Option.some.injEq] at hvalue
  refine ⟨_, ?_, hne, hdigit, hvalue ▸ hlt⟩
  by_cases hplus : field.head? = some '+'
  · rw [if_pos hplus]
    obtain ⟨t, rfl⟩ := List.head?_eq_some_iff.1 hplus
    exact Or.inr rfl
  · exact Or.inl (if_neg hplus).symm

/-- What stands in the field of a size. -/
inductive SizeField where
  /-- Nothing. -/
  | absent
  /-- A size in decimal, after a `+` or not and after any number of zeros. -/
  | decimal (plus : Bool) (zeros : Nat) (size : UInt64)
  /-- A text that is no size. -/
  | other (text : List Char) (h : ¬ IsSize text)

namespace SizeField

def text : SizeField → List Char
  | absent => []
  | decimal plus zeros size =>
    let digits := List.replicate zeros '0' ++ (toString size.toNat).toList
    if plus then '+' :: digits else digits
  | other text _ => text

/-- The size that is written there. -/
def value : SizeField → Option Nat
  | absent => none
  | decimal _ _ size => some size.toNat
  | other _ _ => none

/-- **A size** is read as the number that was written. -/
theorem size?_text (f : SizeField) : size? f.text = f.value := by
  cases f with
  | absent => rfl
  | other text h =>
    rw [value, Option.eq_none_iff_forall_ne_some]
    exact fun n hn => h (isSize_of_size? hn)
  | decimal plus zeros size =>
    have hdigit : ∀ c ∈ List.replicate zeros '0' ++ (toString size.toNat).toList,
        c.isDigit = true := by
      intro c hc
      rcases List.mem_append.1 hc with hc | hc
      · rw [List.eq_of_mem_replicate hc]
        decide
      · exact isDigit_of_mem_toString hc
    have hne : List.replicate zeros '0' ++ (toString size.toNat).toList ≠ [] :=
      fun h => toString_ne_nil size.toNat (List.append_eq_nil_iff.1 h).2
    have hvalue : Nat.ofDigitChars 10 (List.replicate zeros '0' ++ (toString size.toNat).toList) 0 =
        size.toNat := by
      rw [Nat.ofDigitChars_append, Nat.ofDigitChars_replicate_zero, Nat.mul_zero,
        ofDigitChars_toString]
    have hread := size?_digits hdigit hne (by rw [hvalue]; exact size.toNat_lt)
    rw [hvalue] at hread
    cases plus with
    | true => exact hread.2
    | false => exact hread.1

end SizeField

/-! ## Entries -/

/-- An entry as it is written: its fields, and which of them are to be quoted. -/
structure Written where
  path : String
  digest : Option String
  size : SizeField
  quotePath : Bool
  quoteDigest : Bool
  quoteSize : Bool
  path_ne : path ≠ ""
  digest_ne : digest ≠ some ""

namespace Written

variable {w : Written}

def fields (w : Written) : Csv.Row := [w.path.toList, (w.digest.getD "").toList, w.size.text]

def text (w : Written) : List Char :=
  Csv.writeField w.quotePath w.path.toList ++ ',' ::
    (Csv.writeField w.quoteDigest (w.digest.getD "").toList ++ ',' ::
      Csv.writeField w.quoteSize w.size.text)

/-- The entry that is written. -/
def entry (w : Written) : RecordEntry := ⟨w.path, w.digest, w.size.value⟩

theorem isRowText (w : Written) : Csv.IsRowText w.text w.fields :=
  Csv.isRowText_three _ _ _ _ _ _

theorem entry?_fields (w : Written) : entry? w.fields = some w.entry := by
  have hpath : w.path.toList ≠ [] := fun h => w.path_ne (String.toList_inj.1 h)
  have hdigest : (if (w.digest.getD "").toList = [] then none
      else some (String.ofList (w.digest.getD "").toList)) = w.digest := by
    have hne := w.digest_ne
    cases hd : w.digest with
    | none => rfl
    | some d =>
      rw [hd] at hne
      have hd' : d.toList ≠ [] := fun h => hne (congrArg some (String.toList_inj.1 h))
      rw [Option.getD_some, if_neg hd', String.ofList_toList]
  unfold entry? fields
  show (if w.path.toList = [] then none else some (RecordEntry.mk (.ofList w.path.toList)
    (if (w.digest.getD "").toList = [] then none
      else some (String.ofList (w.digest.getD "").toList))
    (size? w.size.text))) = some w.entry
  rw [if_neg hpath, hdigest, SizeField.size?_text, String.ofList_toList]
  rfl

theorem text_ne_nil (w : Written) : w.text ≠ [] := by
  unfold text
  simp

theorem head?_text {c : Char} (h : w.text.head? = some c) :
    c = '"' ∨ w.path.toList.head? = some c := by
  have hpath : w.path.toList ≠ [] := fun h => w.path_ne (String.toList_inj.1 h)
  obtain ⟨d, t, ht⟩ := List.exists_cons_of_ne_nil hpath
  unfold text Csv.writeField at h
  rw [ht] at h ⊢
  by_cases hquote : (w.quotePath || !(d :: t).all Csv.isOrdinary) = true
  · rw [if_pos hquote] at h
    exact Or.inl (Option.some.inj h).symm
  · rw [if_neg hquote] at h
    exact Or.inr h

end Written

/-- **Reading what was written.** The record of the text holds the entries that were written, in
their order, if the first path does not start with a byte-order mark. -/
theorem parse_written (s : Csv.Sheet Written)
    (hmark : ∀ w ∈ s.rows.head?, w.path.toList.head? ≠ some '\uFEFF') :
    parse (.ofList (s.text Written.text)) = ⟨s.rows.map Written.entry⟩ := by
  have hhead : (s.text Written.text).head? ≠ some '\uFEFF' := by
    intro h
    obtain ⟨w, hw, hchar⟩ := s.head?_text Written.text_ne_nil (by decide) h
    rcases Written.head?_text hchar with hquote | hpath
    · exact absurd hquote (by decide)
    · exact hmark w hw hpath
  have hrows := s.rows_text (fun w => w.isRowText) hhead
  unfold parse
  rw [String.toList_ofList, hrows, List.filterMap_map]
  exact congrArg Record.mk (List.filterMap_eq_map_iff_forall_eq_some.2 fun w _ => w.entry?_fields)

/-- A path with a comma and quotes, and a row without digest, size and line end. -/
def twoRows : Csv.Sheet Written where
  blank := [.lineFeed]
  lines :=
    [(⟨"a,\"b\"", some "sha256=x", .decimal true 1 7, false, false, true, by decide, by decide⟩,
      .both, [.carriageReturn])]
  last := some ⟨"c", none, .absent, true, false, true, by decide, by decide⟩

theorem parse_twoRows : (∀ w ∈ twoRows.rows.head?, w.path.toList.head? ≠ some '\uFEFF') ∧
    parse "\n\"a,\"\"b\"\"\",sha256=x,\"+07\"\r\n\r\"c\",,\"\"" =
      ⟨[⟨"a,\"b\"", some "sha256=x", some 7⟩, ⟨"c", none, none⟩]⟩ := by
  have hmark : ∀ w ∈ twoRows.rows.head?, w.path.toList.head? ≠ some '\uFEFF' := by
    intro w hw
    obtain rfl := Option.some.inj hw
    decide
  exact ⟨hmark, parse_written twoRows hmark⟩

end Rebadge.Record
