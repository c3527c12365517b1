import Rebadge.Sorted

/-!
# Punycode

A text of any characters is written with ASCII letters, digits and hyphens: its ASCII characters
first, then the places and codes of the others as numbers with digits of changing weights.
-/

namespace Rebadge.Url.Domain.Punycode

def base : Nat := 36
def tMin : Nat := 1
def tMax : Nat := 26
def skew : Nat := 38
def damp : Nat := 700
def firstBias : Nat := 72
def firstCode : Nat := 128

/-- Divides a number by `base - tMin` until it is small; ends with it and `base` times the number of
divisions. -/
def shrink (delta k : Nat) : Nat × Nat :=
  if (base - tMin) * tMax / 2 < delta then shrink (delta / (base - tMin)) (k + base) else (delta, k)
termination_by delta
decreasing_by
  rename_i h
  simp only [base, tMin, tMax] at *
  omega

/-- The bias after a number was written or read, where `count` characters are there then. -/
def adapt (delta count : Nat) (first : Bool) : Nat :=
  let halved := if first then delta / damp else delta / 2
  let (delta, k) := shrink (halved + halved / count) 0
  k + (base - tMin + 1) * delta / (delta + skew)

/-- The threshold of the digit whose place is `k`. -/
def threshold (k bias : Nat) : Nat :=
  min tMax (max tMin (k - bias))

/-! ## Writing -/

/-- The character of a digit. -/
def digitChar (d : Nat) : Char :=
  if d < 26 then .ofNat (97 + d) else .ofNat (22 + d)

theorem threshold_pos (k bias : Nat) : 1 ≤ threshold k bias := by
  simp only [threshold, tMin, tMax]
  omega

theorem threshold_le (k bias : Nat) : threshold k bias ≤ 26 := by
  simp only [threshold, tMax]
  omega

/-- The digits of a number. -/
def digits (bias q k : Nat) : List Char :=
  let t := threshold k bias
  if q < t then [digitChar q]
  else digitChar (t + (q - t) % (base - t)) :: digits bias ((q - t) / (base - t)) (k + base)
termination_by q
decreasing_by
  have h1 := threshold_pos k bias
  have h2 := threshold_le k bias
  simp only [base]
  refine Nat.lt_of_le_of_lt (Nat.div_le_self _ _) ?_
  omega

/-- What is kept while the characters are written. -/
structure Writer where
  delta : Nat
  bias : Nat
  /-- How many characters were written. -/
  count : Nat
  first : Bool
  out : List Char

/-- Passes over a character while those with the code `m` are written. -/
def Writer.pass (m : Nat) (w : Writer) (c : Nat) : Writer :=
  if c < m then { w with delta := w.delta + 1 }
  else if c = m then
    { delta := 0
      bias := adapt w.delta (w.count + 1) w.first
      count := w.count + 1
      first := false
      out := w.out ++ digits w.bias w.delta base }
  else w

/-- Writes the characters with the given codes, in ascending order; `n` is the least code that was
not yet considered. -/
def writeCodes (input : List Nat) (n : Nat) (w : Writer) : List Nat → List Char
  | [] => w.out
  | m :: rest =>
    let w := input.foldl (Writer.pass m) { w with delta := w.delta + (m - n) * (w.count + 1) }
    writeCodes input (m + 1) { w with delta := w.delta + 1 } rest

/-- The codes in ascending order, each once. -/
def ascending (codes : List Nat) : List Nat :=
  (Sorted.sort (fun a b => decide (a ≤ b)) codes).eraseDups

/-- The Punycode of a text. -/
def encode (input : List Nat) : List Char :=
  let ascii := input.filter (· < firstCode)
  let start := if ascii = [] then [] else ascii.map Char.ofNat ++ ['-']
  let w : Writer := {
    delta := 0, bias := firstBias, count := ascii.length, first := true, out := start }
  writeCodes input firstCode w (ascending (input.filter (firstCode ≤ ·)))

/-! ## Reading -/

/-- The value of a digit. -/
def digit? (c : Char) : Option Nat :=
  if 'a' ≤ c ∧ c ≤ 'z' then some (c.toNat - 97)
  else if 'A' ≤ c ∧ c ≤ 'Z' then some (c.toNat - 65)
  else if c.isDigit then some (c.toNat - 22)
  else none

/-- The greatest code point. -/
def lastCode : Nat := 0x10ffff

/-- Codes that stand for no character. -/
def isSurrogate (n : Nat) : Bool := 0xd800 ≤ n && n ≤ 0xdfff

/-- What is kept while digits are read. -/
structure Reader where
  code : Nat := firstCode
  /-- The place of the last character, and the sum of the digits of the next number. -/
  place : Nat := 0
  bias : Nat := firstBias
  /-- The sum before the number, its next weight and the place of its next digit. -/
  start : Nat := 0
  weight : Nat := 1
  k : Nat := base
  out : List Nat

/-- Puts in the character that a finished number stands for. -/
def Reader.insert? (r : Reader) (sum : Nat) : Option Reader :=
  let count := r.out.length + 1
  let code := r.code + sum / count
  let place := sum % count
  if lastCode < code ∨ isSurrogate code then none
  else
    some {
      code
      place := place + 1
      bias := adapt (sum - r.start) count (r.start == 0)
      start := place + 1
      out := r.out.take place ++ code :: r.out.drop place }

/-- Reads digits. -/
def readDigits (r : Reader) : List Char → Option (List Nat)
  | [] => if r.k = base then some r.out else none
  | c :: rest =>
    match digit? c with
    | none => none
    | some d =>
      let sum := r.place + d * r.weight
      let t := threshold r.k r.bias
      if d < t then
        match r.insert? sum with
        | none => none
        | some r => readDigits r rest
      else readDigits { r with place := sum, weight := r.weight * (base - t), k := r.k + base } rest

/-- The characters before the last hyphen and those after it. -/
def cutLastHyphen (s : List Char) : List Char × List Char :=
  if s.contains '-' then
    let tail := (s.reverse.takeWhile (· != '-')).reverse
    (s.take (s.length - tail.length - 1), tail)
  else ([], s)

/-- The text of a Punycode. -/
def decode? (s : List Char) : Option (List Nat) :=
  let (ascii, tail) := cutLastHyphen s
  if ascii.any fun c => firstCode ≤ c.toNat then none
  else readDigits { out := ascii.map Char.toNat } tail

end Rebadge.Url.Domain.Punycode
