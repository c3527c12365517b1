import Rebadge.Text.Chars

/-!
# Operations on strings

The operations of `Rebadge.Chars` on strings, with the names the rest of the library uses.
-/

namespace Rebadge.Text

/-- Every occurrence of `pat` replaced by `rep`, from left to right. -/
def replaceAll (s pat rep : String) : String :=
  .ofList (Chars.replaceAll pat.toList rep.toList s.toList)

/-- The first occurrence of `pat` replaced by `rep`. -/
def replaceFirst (s pat rep : String) : String :=
  .ofList (Chars.replaceFirst pat.toList rep.toList s.toList)

/-- The pieces of the text between separators. -/
def split (s : String) (sep : Char) : List String :=
  (Chars.split sep s.toList).map .ofList

/-- The lines of the text, without their line ends. -/
def lines (s : String) : List String :=
  (Chars.lines s.toList).map .ofList

/-- What follows `pre` at the start of the text. -/
def stripPrefix? (pre s : String) : Option String :=
  (pre.toList.isPrefixOf? s.toList).map .ofList

@[simp] theorem stripPrefix?_append (pre s : String) : stripPrefix? pre (pre ++ s) = some s := by
  have hpre : ∀ l : List Char, l.isPrefixOf? (l ++ s.toList) = some s.toList := by
    intro l
    induction l with
    | nil => rfl
    | cons c l ih =>
      show (if c == c then l.isPrefixOf? (l ++ s.toList) else none) = some s.toList
      rw [beq_self_eq_true, if_pos rfl, ih]
  unfold stripPrefix?
  rw [String.toList_append, hpre, Option.map_some, String.ofList_toList]

/-- What precedes `suffix` at the end of the text. -/
def stripSuffix? (suffix s : String) : Option String :=
  (Chars.stripSuffix? suffix.toList s.toList).map .ofList

/-- The text starts with `pre`. -/
def hasPrefix (s pre : String) : Bool :=
  pre.toList.isPrefixOf s.toList

/-- The text ends with `suffix`. -/
def hasSuffix (s suffix : String) : Bool :=
  suffix.toList.isSuffixOf s.toList

/-- The text without the copies of `c` at its end. -/
def trimEnd (s : String) (c : Char) : String :=
  .ofList (Chars.dropEndWhile (· == c) s.toList)

/-- The text contains the character. -/
def hasChar (s : String) (c : Char) : Bool :=
  s.toList.contains c

/-- The order of texts by code points, which is also the order of their UTF-8 bytes. -/
def le (a b : String) : Bool :=
  !(decide (b < a))

end Rebadge.Text
