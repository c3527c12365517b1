import Rebadge.Text.CharTable

/-!
# Digits and word characters

A decimal digit is a character of general category Nd. A word character is alphabetic, a mark, a
decimal digit, a connector punctuation or a join control. ASCII is decided directly, the rest by
table.
-/

namespace Rebadge.Text

/-- Some range of the table covers the code point. -/
def inRanges (table : List (Nat × Nat)) (n : Nat) : Bool :=
  table.any fun r => r.1 ≤ n && n ≤ r.2

/-- Decimal digits of any script. -/
def isDecimalDigit (c : Char) : Bool :=
  if c.toNat < 128 then c.isDigit else inRanges decimalDigitRanges c.toNat

/-- Letters, marks, digits, connectors and join controls of any script. -/
def isWordChar (c : Char) : Bool :=
  if c.toNat < 128 then c.isAlphanum || c == '_' else inRanges wordCharRanges c.toNat

theorem toNat_lt_of_isAlphanum {c : Char} (h : c.isAlphanum = true) : c.toNat < 128 := by
  have hbound : ∀ last : Char, c.val ≤ last.val → last.toNat < 128 → c.toNat < 128 := fun _ hle =>
    Nat.lt_of_le_of_lt (UInt32.le_iff_toNat_le.1 hle)
  rcases (Bool.or_eq_true _ _).mp h with halpha | hdigit
  · rcases (Bool.or_eq_true _ _).mp halpha with hupper | hlower
    · exact hbound 'Z' (of_decide_eq_true hupper).2 (by decide)
    · exact hbound 'z' (of_decide_eq_true ((Bool.and_eq_true _ _).mp hlower).2) (by decide)
  · exact hbound '9' (of_decide_eq_true ((Bool.and_eq_true _ _).mp hdigit).2) (by decide)

theorem isWordChar_of_isAlphanum {c : Char} (h : c.isAlphanum = true) : isWordChar c = true := by
  simp [isWordChar, toNat_lt_of_isAlphanum h, h]

end Rebadge.Text
