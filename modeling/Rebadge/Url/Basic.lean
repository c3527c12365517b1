import Rebadge.Bytes
import Rebadge.Text.Basic

/-!
# URLs

A URL has a scheme, an authority unless it does without, a path, and maybe a query and a fragment.
The parts are kept in their written form, percent-encoded where needed.
-/

namespace Rebadge

/-- The host of an authority. -/
inductive Host where
  /-- A domain name, or the empty text. -/
  | domain (name : String)
  | ipv4 (address : Nat)
  /-- Eight pieces of 16 bits. -/
  | ipv6 (pieces : List Nat)
deriving DecidableEq, Repr

/-- The part of a URL between `//` and the path. -/
structure Authority where
  username : String := ""
  password : String := ""
  host : Host
  /-- The port, unless it is the scheme's own. -/
  port : Option Nat := none
deriving DecidableEq, Repr

namespace Url

/-- The path of a URL. -/
inductive Path where
  /-- A text without structure, which nothing can be resolved against. -/
  | text (s : String)
  /-- Segments, each after a slash. -/
  | segments (parts : List String)
deriving DecidableEq, Repr

/-- Why a text is no URL. -/
inductive Fault where
  | emptyHost
  | badPort
  | badIpv4
  | badIpv6
  | badDomain
  | badHostCharacter
  | noBase
  | baseCannotResolve
deriving DecidableEq, Repr

/-- The wording of the fault. -/
def Fault.message : Fault → String
  | .emptyHost => "empty host"
  | .badPort => "invalid port number"
  | .badIpv4 => "invalid IPv4 address"
  | .badIpv6 => "invalid IPv6 address"
  | .badDomain => "invalid international domain name"
  | .badHostCharacter => "invalid domain character"
  | .noBase => "relative URL without a base"
  | .baseCannotResolve => "relative URL with a cannot-be-a-base base"

end Url

/-- A URL. -/
structure Url where
  scheme : String
  authority : Option Authority
  path : Url.Path
  query : Option String := none
  fragment : Option String := none
deriving DecidableEq, Repr

/-! ## Writing hosts -/

namespace Host

/-- The four bytes of an address with dots between them. -/
def ipv4Text (n : Nat) : String :=
  ".".intercalate ([n / 0x1000000, n / 0x10000 % 256, n / 0x100 % 256, n % 256].map toString)

def hexText (n : Nat) : String := .ofList (Nat.toDigits 16 n)

/-- The number of zeros at the start. -/
def zeroRun (pieces : List Nat) : Nat := (pieces.takeWhile (· == 0)).length

/-- The first longest run of zeros as its start and length, searched from position `i`. -/
def longestZeroRun (i : Nat) : List Nat → Nat × Nat
  | [] => (0, 0)
  | p :: ps =>
    let here := zeroRun (p :: ps)
    let later := longestZeroRun (i + 1) ps
    if later.2 ≤ here then (i, here) else later

/-- The pieces in hexadecimal with colons; the first longest run of at least two zeros is left
out. -/
def ipv6Text (pieces : List Nat) : String :=
  let run := longestZeroRun 0 pieces
  let text (ps : List Nat) : String := ":".intercalate (ps.map hexText)
  if run.2 < 2 then text pieces
  else text (pieces.take run.1) ++ "::" ++ text (pieces.drop (run.1 + run.2))

/-- The host as it stands in a URL. -/
def text : Host → String
  | domain name => name
  | ipv4 n => ipv4Text n
  | ipv6 pieces => "[" ++ ipv6Text pieces ++ "]"

end Host

/-! ## Writing URLs -/

namespace Url

/-- The schemes with an authority and a path of segments. -/
def isSpecial (scheme : String) : Bool :=
  ["http", "https", "ws", "wss", "ftp", "file"].contains scheme

/-- The port that a scheme uses when none is given. -/
def defaultPort? (scheme : String) : Option Nat :=
  [("http", 80), ("https", 443), ("ws", 80), ("wss", 443), ("ftp", 21)].lookup scheme

/-- The user's part of the authority with its `@`, if there is one. -/
def userText (a : Authority) : String :=
  if a.username = "" ∧ a.password = "" then ""
  else a.username ++ (if a.password = "" then "" else ":" ++ a.password) ++ "@"

def authorityText (a : Authority) : String :=
  userText a ++ a.host.text ++ (match a.port with
    | some p => ":" ++ toString p
    | none => "")

/-- The path as text. -/
def Path.render : Path → String
  | .text s => s
  | .segments parts => String.join (parts.map ("/" ++ ·))

/-- What precedes the path: the authority with its slashes, or a mark that keeps a path with an
empty first segment from being read as one. -/
def beforePath (u : Url) : String :=
  match u.authority with
  | some a => "//" ++ authorityText a
  | none =>
    match u.path with
    | .segments ("" :: _ :: _) => "/."
    | _ => ""

/-- The text after a mark, if there is one. -/
def marked (mark : String) : Option String → String
  | some s => mark ++ s
  | none => ""

/-- The URL as text. -/
def toText (u : Url) : String :=
  u.scheme ++ ":" ++ u.beforePath ++ u.path.render ++ marked "?" u.query ++ marked "#" u.fragment

/-- The last segment of the path. -/
def lastSegment? (u : Url) : Option String :=
  match u.path with
  | .text _ => none
  | .segments parts => parts.getLast?

end Url
end Rebadge
