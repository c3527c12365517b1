import Rebadge.Toml.Parser
import Rebadge.Toml.Value

/-!
# Scalars and keys of TOML

Blanks, line ends, comments, the four forms of strings, keys, numbers, and dates and times.
-/

namespace Rebadge.Toml

open Rebadge.Parser

/-! ## Blanks and line ends -/

def isBlank (c : Char) : Bool := c == ' ' || c == '\t'

/-- The characters that may stand in comments and, but for delimiters, in strings of one line. -/
def isPrintable (c : Char) : Bool := c == '\t' || (0x20 ≤ c.toNat && c.toNat != 0x7F)

def blanks : Parser Unit := do
  let _ ← run isBlank

/-- A line feed, alone or after a carriage return. -/
def lineEnd : Parser Unit := text "\n" <|> text "\r\n"

/-- A comment up to the end of its line. -/
def comment : Parser Unit := do
  text "#"
  let _ ← run isPrintable

/-- What may follow a statement on its line. -/
def lineRest : Parser Unit := do
  blanks
  let _ ← optional comment
  lineEnd <|> done

/-! ## Strings -/

/-- The value of a hexadecimal digit. -/
def hexDigit? (c : Char) : Option Nat :=
  if c.isDigit then some (c.toNat - 48)
  else if 'a' ≤ c ∧ c ≤ 'f' then some (c.toNat - 87)
  else if 'A' ≤ c ∧ c ≤ 'F' then some (c.toNat - 55)
  else none

/-- The value of exactly `n` hexadecimal digits read after `acc`. -/
def hexNumber : Nat → Nat → Parser Nat
  | 0, acc => return acc
  | n + 1, acc => do
    let c ← satisfy fun c => (hexDigit? c).isSome
    hexNumber n (16 * acc + (hexDigit? c).getD 0)

/-- The character of a code point that is no surrogate. -/
def scalar (n : Nat) : Parser Char :=
  if h : n.isValidChar then return Char.ofNatAux n h else failure

/-- An escape after its backslash. -/
def escaped : Parser Char := do
  match ← satisfy fun _ => true with
  | 'b' => return '\x08'
  | 't' => return '\t'
  | 'n' => return '\n'
  | 'f' => return '\x0c'
  | 'r' => return '\r'
  | '"' => return '"'
  | '\\' => return '\\'
  | 'u' => scalar (← hexNumber 4 0)
  | 'U' => scalar (← hexNumber 8 0)
  | _ => failure

def basicChar : Parser Char :=
  satisfy (fun c => isPrintable c && c != '"' && c != '\\') <|> (char '\\' *> escaped)

/-- A string between double quotes. -/
def basicString : Parser (List Char) :=
  char '"' *> many basicChar <* char '"'

/-- A string between single quotes, without escapes. -/
def literalString : Parser (List Char) :=
  char '\'' *> run (fun c => isPrintable c && c != '\'') <* char '\''

/-- One or two quotes before something that satisfies `next`. -/
def quotesBefore (q : Char) (next : Parser Unit) : Parser (List Char) :=
  (do let a ← char q; let b ← char q; next; return [a, b]) <|> (do let a ← char q; next; return [a])

/-- The body of a string between tripled quotes: pieces, then up to two quotes before the closing
ones. A line end right after the opening quotes is dropped. -/
def tripleQuoted (q : Char) (piece : Parser (List Char)) : Parser (List Char) := do
  let closing : Parser Unit := do
    let _ ← char q; let _ ← char q; let _ ← char q
  closing
  let _ ← optional lineEnd
  let quotes := quotesBefore q (ahead (satisfy (· != q)))
  let body ← many (piece <|> quotes)
  let last ← optional (quotesBefore q (ahead closing))
  closing
  return body.flatten ++ last.getD []

/-- Every line end inside a string stands for one line feed. -/
def lineFeed : Parser (List Char) := do
  lineEnd
  return ['\n']

/-- A backslash at the end of a line and the blanks and line ends after it. -/
def continuation : Parser (List Char) := do
  let _ ← char '\\'
  blanks
  lineEnd
  let _ ← many ((do let _ ← satisfy isBlank) <|> lineEnd)
  return []

def multilineBasic : Parser (List Char) :=
  tripleQuoted '"' (continuation <|> lineFeed <|> (return [← basicChar]))

def multilineLiteral : Parser (List Char) :=
  tripleQuoted '\'' (lineFeed <|> (return [← satisfy fun c => isPrintable c && c != '\'']))

/-- A string in any form. -/
def anyString : Parser String :=
  String.ofList <$> (multilineBasic <|> basicString <|> multilineLiteral <|> literalString)

/-! ## Keys -/

def isBareKeyChar (c : Char) : Bool := c.isAlphanum || c == '-' || c == '_'

def simpleKey : Parser String :=
  String.ofList <$> (run1 isBareKeyChar <|> basicString <|> literalString)

/-- The nesting of values and the parts of a key stay below this number. -/
def depthLimit : Nat := 80

/-- A key with its dots: all parts but the last, and the last. -/
def key : Parser (List String × String) := do
  let part : Parser String := blanks *> simpleKey <* blanks
  let first ← part
  let parts := first :: (← many (char '.' *> part))
  if depthLimit ≤ parts.length then failure
  return (parts.dropLast, parts.getLastD first)

/-! ## Numbers -/

/-- Digits, with single underscores between digits left out. -/
def digits (ok : Char → Bool) : Parser (List Char) := do
  let first ← satisfy ok
  let rest ← many (optional (char '_') *> satisfy ok)
  return first :: rest

def sign : Parser Bool := do
  match ← optional (char '-' <|> char '+') with
  | some '-' => return true
  | _ => return false

/-- The digits of a whole number, which start with zero only if there is no other. -/
def wholeDigits : Parser (List Char) :=
  (ahead (satisfy fun c => c.isDigit && c != '0') *> digits Char.isDigit) <|> (return [← char '0'])

def value (base : Nat) (ds : List Char) : Nat :=
  ds.foldl (fun n c => base * n + (hexDigit? c).getD 0) 0

/-- An integer of 64 bits. Other bases have no sign. -/
def integer : Parser Int := do
  let based (mark : String) (base : Nat) (ok : Char → Bool) : Parser Int := do
    text mark
    return Int.ofNat (value base (← digits ok))
  let decimal : Parser Int := do
    let negative ← sign
    let n := Int.ofNat (value 10 (← wholeDigits))
    return if negative then -n else n
  let n ← based "0x" 16 (fun c => (hexDigit? c).isSome) <|>
    based "0o" 8 (fun c => '0' ≤ c && c ≤ '7') <|>
    based "0b" 2 (fun c => c == '0' || c == '1') <|> decimal
  if -0x8000000000000000 ≤ n ∧ n < 0x8000000000000000 then return n else failure

/-- `m * 10 ^ e` is rounded to infinity as a binary number of 64 bits. -/
def overflows (m : Nat) (e : Int) : Bool :=
  let limit := Nat.pow 2 1024 - Nat.pow 2 970
  let magnitude : Int := (toString m).length + e
  if m = 0 ∨ magnitude < 300 then false
  else if 320 < magnitude then true
  else if 0 ≤ e then limit ≤ m * Nat.pow 10 e.toNat
  else limit * Nat.pow 10 (-e).toNat ≤ m

/-- A number with a fraction or an exponent. -/
def floatNumber : Parser Unit := do
  let negative ← sign
  let whole ← wholeDigits
  let exponent : Parser Int := do
    let _ ← char 'e' <|> char 'E'
    let down ← sign
    let n := Int.ofNat (value 10 (← digits Char.isDigit))
    return if down then -n else n
  let fraction ← optional (char '.' *> digits Char.isDigit)
  let e ← if fraction.isSome then (·.getD 0) <$> optional exponent else exponent
  let fractional := fraction.getD []
  if !negative && overflows (value 10 (whole ++ fractional)) (e - fractional.length) then failure

/-- A float in any form, as its text. -/
def float : Parser String :=
  String.ofList <$> taken (floatNumber <|> (do let _ ← sign; text "inf" <|> text "nan"))

/-! ## Dates and times -/

/-- The value of exactly `n` decimal digits. -/
def fixedDigits : Nat → Nat → Parser Nat
  | 0, acc => return acc
  | n + 1, acc => do
    let c ← satisfy Char.isDigit
    fixedDigits n (10 * acc + (c.toNat - 48))

/-- Two digits with a value in the range. -/
def twoDigits (low high : Nat) : Parser Nat := do
  let n ← fixedDigits 2 0
  if low ≤ n ∧ n ≤ high then return n else failure

def isLeapYear (y : Nat) : Bool := y % 4 == 0 && (y % 100 != 0 || y % 400 == 0)

def daysInMonth (y m : Nat) : Nat :=
  if m = 2 then (if isLeapYear y then 29 else 28)
  else if m = 4 ∨ m = 6 ∨ m = 9 ∨ m = 11 then 30 else 31

def date : Parser Unit := do
  let y ← fixedDigits 4 0
  text "-"
  let m ← twoDigits 1 12
  text "-"
  let _ ← twoDigits 1 (daysInMonth y m)

def time : Parser Unit := do
  let _ ← twoDigits 0 23
  text ":"
  let _ ← twoDigits 0 59
  text ":"
  let _ ← twoDigits 0 60
  let _ ← optional (char '.' *> run1 Char.isDigit)

def zone : Parser Unit :=
  (do let _ ← char 'Z' <|> char 'z') <|> do
    let _ ← char '+' <|> char '-'
    let _ ← twoDigits 0 23
    text ":"
    let _ ← twoDigits 0 59

/-- A date, a time or both, as its text. -/
def moment : Parser String :=
  String.ofList <$> taken (time <|> do
    date
    let _ ← optional do
      let _ ← char 'T' <|> char 't' <|> char ' '
      time
      let _ ← optional zone)

end Rebadge.Toml
