import Rebadge.Bytes
import Rebadge.Url.Domain.Label
import Rebadge.Url.Domain.Punycode

/-!
# Domain names in ASCII

A domain name is brought into the form in which it is looked up: characters are mapped, labels are
checked, and labels with characters outside ASCII are written in Punycode.
-/

namespace Rebadge.Url

namespace Domain

/-- What a label in Punycode starts with. -/
def mark : List Nat := "xn--".toList.map Char.toNat

/-- Whether a character has no place in the host of a URL. -/
def isForbidden (n : Nat) : Bool :=
  n ≤ 0x20 || n == 0x7f || ("%#/:<>?@[\\]^|".toList.map Char.toNat).contains n

/-- Whether a label is ASCII alone. -/
def isAscii (label : List Nat) : Bool := label.all (· < 128)

/-- The labels between full stops. -/
def labels : List Nat → List (List Nat)
  | [] => [[]]
  | n :: rest =>
    if n = '.'.toNat then [] :: labels rest
    else
      match labels rest with
      | [] => [[n]]
      | l :: ls => (n :: l) :: ls

/-- The characters that a label stands for. -/
def meaning? (label : List Nat) : Option (List Nat) :=
  match mark.isPrefixOf? label with
  | none => some label
  | some code =>
    if !isAscii code then none
    else
      match Punycode.decode? (code.map Char.ofNat) with
      | some text => if isAscii text then none else some text
      | none => none

/-- The label in ASCII. -/
def toAscii (label : List Nat) : List Char :=
  if isAscii label then label.map Char.ofNat
  else mark.map Char.ofNat ++ Punycode.encode label

/-- The characters of a name, mapped and composed. -/
def mappedName? (s : List Nat) : Option (List Nat) :=
  (s.mapM mapped?).map fun parts => Text.Unicode.composed parts.flatten

/-- The labels of a name, if all are valid. -/
def validLabels? (s : List Nat) : Option (List (List Nat)) := do
  let meanings ← (labels (← mappedName? s)).mapM meaning?
  let mixed := meanings.any isRightToLeft
  let fits (l : List Nat) : Bool :=
    !(l.any isForbidden) && (isAscii l || isValidLabel l) && (!mixed || directionsFit l)
  if meanings.all fits then some meanings else none

/-- Whether a name in lower case is ASCII without labels in Punycode, so that it is its own form. -/
def isPlain (s : List Nat) : Bool :=
  isAscii s && (labels s).all (!mark.isPrefixOf ·)

end Domain

/-- The ASCII form of a domain name. -/
def domainToAscii? (domain : Bytes) : Option (List Char) := do
  let name ← ofUtf8? domain
  let lower := name.toList.map Char.toLower
  if Domain.isPlain (lower.map Char.toNat) then
    if lower.any (Domain.isForbidden ·.toNat) then none else some lower
  else
    let labels ← Domain.validLabels? (name.toList.map Char.toNat)
    return Chars.join '.' (labels.map Domain.toAscii)

end Rebadge.Url
