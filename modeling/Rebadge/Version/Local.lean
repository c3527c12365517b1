import Rebadge.Text.CharClass

/-!
# Local versions of development releases

A development version has the form `N.N.N.devN`. A local version is a `+` and a label of word
characters right after it. Package indexes refuse local versions, so `stripLocalVersion` deletes
them everywhere in a text and leaves all else as it is.
-/

namespace Rebadge.Version

open Text (isDecimalDigit isWordChar)

/-- A development version and the label of its local version. -/
structure LocalVersion where
  /-- The text `N.N.N.devN`. -/
  base : List Char
  /-- The word characters after the `+`. -/
  label : List Char
deriving DecidableEq, Repr

/-- The length of the text `base+label`. -/
def LocalVersion.length (m : LocalVersion) : Nat :=
  m.base.length + 1 + m.label.length

/-- The longest run of digits at the start, if it is not empty, and the rest. -/
def number? (s : List Char) : Option (List Char × List Char) :=
  let digits := s.takeWhile isDecimalDigit
  if digits.isEmpty then none else some (digits, s.dropWhile isDecimalDigit)

/-- The text `N.N.N.devN` at the start, and the rest. -/
def devVersion? (s : List Char) : Option (List Char × List Char) := do
  let (major, s) ← number? s
  let s ← ['.'].isPrefixOf? s
  let (minor, s) ← number? s
  let s ← ['.'].isPrefixOf? s
  let (patch, s) ← number? s
  let s ← ['.', 'd', 'e', 'v'].isPrefixOf? s
  let (dev, s) ← number? s
  return (major ++ '.' :: minor ++ '.' :: patch ++ '.' :: 'd' :: 'e' :: 'v' :: dev, s)

/-- The local version that starts the text. Its label is as long as it can be. -/
def localVersion? (s : List Char) : Option LocalVersion := do
  let (base, s) ← devVersion? s
  let s ← ['+'].isPrefixOf? s
  let label := s.takeWhile isWordChar
  if label.isEmpty then none else some ⟨base, label⟩

/-- The text without its local versions, where `skip` characters at the front belong to a local
version that was already met. -/
def stripFrom : Nat → List Char → List Char
  | _, [] => []
  | skip + 1, _ :: s => stripFrom skip s
  | 0, c :: s =>
    match localVersion? (c :: s) with
    | some m => m.base ++ stripFrom (m.length - 1) s
    | none => c :: stripFrom 0 s

theorem stripFrom_eq_drop (skip : Nat) (s : List Char) :
    stripFrom skip s = stripFrom 0 (s.drop skip) := by
  induction skip generalizing s with
  | zero => simp
  | succ k ih => cases s with
    | nil => simp [stripFrom]
    | cons c s => simpa [stripFrom] using ih s

/-- The text with every `N.N.N.devN+label` cut back to `N.N.N.devN`. -/
def stripLocalVersion (s : String) : String :=
  .ofList (stripFrom 0 s.toList)

end Rebadge.Version
