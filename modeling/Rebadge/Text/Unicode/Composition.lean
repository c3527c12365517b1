import Rebadge.Text.Unicode.CombiningTable
import Rebadge.Text.Unicode.CompositeTable
import Rebadge.Text.Unicode.RangeTable

/-!
# Canonical composition

The composed form of a text: composites are taken apart, marks are put in order, and what can be
composed is composed again. Characters that stand for a single other one are expected to be replaced
before.
-/

namespace Rebadge.Text.Unicode

/-! ## Tables -/

def combiningTable : RangeTable String := rangeTable combiningText

def markTable : RangeTable String := rangeTable markText

/-- The canonical combining class, which is zero for characters that start a new sequence. -/
def combiningClass (n : Nat) : Nat :=
  (combiningTable.value "0" n).toList.foldl (fun k c => 10 * k + (c.toNat - 48)) 0

/-- Whether a character is a mark. -/
def isMark (n : Nat) : Bool := markTable.value "N" n == "M"

/-- A composite with its two parts. -/
structure Composite where
  whole : Nat
  first : Nat
  second : Nat
deriving DecidableEq, Repr

def composites : List Composite :=
  (words compositeText).map fun word =>
    let (whole, parts) := cutAt '=' word
    let (first, second) := cutAt '+' parts
    ⟨hexNumber whole, hexNumber first, hexNumber second⟩

/-! ## Hangul -/

def hangulBase : Nat := 0xac00
def leadBase : Nat := 0x1100
def vowelBase : Nat := 0x1161
def tailBase : Nat := 0x11a7
def leadCount : Nat := 19
def vowelCount : Nat := 21
def tailCount : Nat := 28

/-- The parts of a syllable: a lead, a vowel and maybe a tail. -/
def hangulParts? (n : Nat) : Option (List Nat) :=
  let i := n - hangulBase
  if hangulBase ≤ n ∧ i < leadCount * vowelCount * tailCount then
    let tail := i % tailCount
    some ([leadBase + i / (vowelCount * tailCount),
      vowelBase + i % (vowelCount * tailCount) / tailCount] ++
      if tail = 0 then [] else [tailBase + tail])
  else none

/-- The syllable, or its beginning, that two characters make. -/
def hangulWhole? (a b : Nat) : Option Nat :=
  let isLead := leadBase ≤ a ∧ a < leadBase + leadCount
  let isVowel := vowelBase ≤ b ∧ b < vowelBase + vowelCount
  let isOpen := hangulBase ≤ a ∧ a < hangulBase + leadCount * vowelCount * tailCount ∧
    (a - hangulBase) % tailCount = 0
  let isTail := tailBase < b ∧ b < tailBase + tailCount
  if isLead ∧ isVowel then
    some (hangulBase + ((a - leadBase) * vowelCount + (b - vowelBase)) * tailCount)
  else if isOpen ∧ isTail then some (a + (b - tailBase))
  else none

/-! ## Taking apart -/

/-- How often a composite can be taken apart. -/
def maxNesting : Nat := 4

/-- The characters that a character is composed of. -/
def decompose : Nat → Nat → List Nat
  | 0, n => [n]
  | depth + 1, n =>
    match hangulParts? n, composites.find? (·.whole == n) with
    | some parts, _ => parts
    | none, some c => decompose depth c.first ++ [c.second]
    | none, none => [n]

/-- The characters with another one put in front, behind the marks of lower classes. -/
def insertMark (n : Nat) : List Nat → List Nat
  | [] => [n]
  | m :: rest =>
    if combiningClass n ≠ 0 ∧ combiningClass m ≠ 0 ∧ combiningClass m < combiningClass n then
      m :: insertMark n rest
    else n :: m :: rest

/-- The characters with each run of marks in the order of their classes. -/
def orderMarks (s : List Nat) : List Nat := s.foldr insertMark []

/-! ## Putting together -/

/-- The composite of two characters. -/
def compose? (a b : Nat) : Option Nat :=
  match hangulWhole? a b with
  | some whole => some whole
  | none => (composites.find? fun c => c.first == a && c.second == b).map (·.whole)

/-- The composed form of a starter, the marks behind it that could not be composed with it, and the
rest. A mark is out of reach behind one of its own or a higher class, and a starter behind any
mark. -/
def composeFrom (starter : Nat) (marks : List Nat) : List Nat → List Nat
  | [] => starter :: marks
  | n :: rest =>
    let blocked : Bool := match marks.getLast? with
      | some m => combiningClass n ≤ combiningClass m
      | none => false
    match if blocked then none else compose? starter n with
    | some whole => composeFrom whole marks rest
    | none =>
      if combiningClass n = 0 then starter :: marks ++ composeFrom n [] rest
      else composeFrom starter (marks ++ [n]) rest

/-- The composed form of a text; marks at its start stay as they are. -/
def composeAll : List Nat → List Nat
  | [] => []
  | n :: rest => if combiningClass n = 0 then composeFrom n [] rest else n :: composeAll rest

/-- The normal form of a text. -/
def composed (s : List Nat) : List Nat :=
  composeAll (orderMarks (s.flatMap (decompose maxNesting)))

end Rebadge.Text.Unicode
