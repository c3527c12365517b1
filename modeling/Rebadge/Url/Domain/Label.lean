import Rebadge.Text.Unicode.Composition
import Rebadge.Text.Unicode.DirectionTable
import Rebadge.Url.Domain.Mapping

/-!
# Labels of a domain name

The rules that a label with characters outside ASCII must keep: where joiners may stand, how
directions may be mixed, and what a label may start with.
-/

namespace Rebadge.Url.Domain

open Text.Unicode

def directionTable : RangeTable String := rangeTable directionText

def joiningTable : RangeTable String := rangeTable joiningText

/-- The bidirectional class. -/
def direction (n : Nat) : String := directionTable.value "L" n

/-- The joining type. -/
def joining (n : Nat) : String := joiningTable.value "U" n

/-! ## Joiners -/

def nonJoiner : Nat := 0x200c

def joiner : Nat := 0x200d

/-- The combining class of signs that suppress a vowel. -/
def viramaClass : Nat := 9

/-- The type of the first character that is not transparent. -/
def joiningBeyond (s : List Nat) : String :=
  match s.dropWhile (joining · == "T") with
  | [] => "U"
  | n :: _ => joining n

/-- Whether a joiner or non-joiner may stand between the characters before it, the nearest first,
and those after. -/
def mayJoin (n : Nat) (before after : List Nat) : Bool :=
  let afterVirama := match before with
    | b :: _ => combiningClass b == viramaClass
    | [] => false
  let betweenJoining :=
    ["L", "D"].contains (joiningBeyond before) && ["R", "D"].contains (joiningBeyond after)
  afterVirama || (n == nonJoiner && betweenJoining)

/-- Whether every joiner and non-joiner has its place, given the characters before, the nearest
first. -/
def joinersFit (before : List Nat) : List Nat → Bool
  | [] => true
  | n :: rest =>
    (!(n == nonJoiner || n == joiner) || mayJoin n before rest) && joinersFit (n :: before) rest

/-! ## Directions -/

/-- Whether a text has characters that run from right to left. -/
def isRightToLeft (s : List Nat) : Bool :=
  s.any fun n => ["R", "AL", "AN"].contains (direction n)

/-- The classes that a label of the given direction may have. -/
def allowedClasses (rightToLeft : Bool) : List String :=
  ["EN", "ES", "CS", "ET", "ON", "BN", "NSM"] ++ if rightToLeft then ["R", "AL", "AN"] else ["L"]

/-- The classes that a label of the given direction may end with, before marks. -/
def endClasses (rightToLeft : Bool) : List String :=
  if rightToLeft then ["R", "AL", "EN", "AN"] else ["L", "EN"]

/-- Whether a label of a name that has right-to-left characters mixes directions as it may. -/
def directionsFit (label : List Nat) : Bool :=
  let classes := label.map direction
  match classes with
  | [] => true
  | first :: _ =>
    let rightToLeft := first == "R" || first == "AL"
    let last := (classes.reverse.dropWhile (· == "NSM")).headD ""
    (rightToLeft || first == "L") &&
      classes.all (allowedClasses rightToLeft).contains &&
      (endClasses rightToLeft).contains last &&
      !(rightToLeft && classes.contains "EN" && classes.contains "AN")

/-! ## Validity -/

/-- Whether a character stands for itself. -/
def isValid (n : Nat) : Bool := mapped? n == some [n]

/-- Whether a label that is not ASCII alone is valid. -/
def isValidLabel (label : List Nat) : Bool :=
  label.all isValid && composed label == label && !(label.head?.any isMark) && joinersFit [] label

end Rebadge.Url.Domain
