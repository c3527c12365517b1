import Rebadge.Url.Address
import Rebadge.Url.Domain

/-!
# Reading URLs

A text is read on its own or against a base. Blanks and control characters around it are cut, and
tabs and line ends inside are dropped. The schemes with a fixed structure take a backslash for a
slash.
-/

namespace Rebadge.Url

/-! ## Cutting the input -/

def isTabOrLineEnd (c : Char) : Bool := c == '\t' || c == '\n' || c == '\r'

/-- The input without what surrounds the URL and without tabs and line ends. -/
def cleaned (s : List Char) : List Char :=
  let blank (c : Char) : Bool := c.toNat ≤ 0x20
  (Chars.dropEndWhile blank (s.dropWhile blank)).filter (!isTabOrLineEnd ·)

def isSchemeChar (c : Char) : Bool :=
  c.toNat < 128 && (c.isAlphanum || c == '+' || c == '-' || c == '.')

/-- The scheme before a colon, in lower case, and what follows. -/
def scheme? (s : List Char) : Option (String × List Char) :=
  let name := s.takeWhile isSchemeChar
  match s.dropWhile isSchemeChar with
  | ':' :: rest =>
    if (name.head?.map Char.isAlpha).getD false then some (.ofList (name.map Char.toLower), rest)
      else none
  | _ => none

/-- A slash, or a backslash where the scheme takes it for one. -/
def isSlash (special : Bool) (c : Char) : Bool := c == '/' || (special && c == '\\')

/-- What ends a path. -/
def endsPath (c : Char) : Bool := c == '?' || c == '#'

/-! ## Paths -/

/-- A letter and a colon or a bar. -/
def isDriveLetter (segment : List Char) : Bool :=
  match segment with
  | [c, d] => c.isAlpha && (d == ':' || d == '|')
  | _ => false

/-- A letter and a colon. -/
def isPlainDriveLetter (segment : String) : Bool :=
  match segment.toList with
  | [c, ':'] => c.isAlpha
  | _ => false

/-- The input starts with a drive letter as its whole first segment. -/
def startsWithDriveLetter (s : List Char) : Bool :=
  match s with
  | c :: d :: rest =>
    isDriveLetter [c, d] && (match rest with
      | [] => true
      | e :: _ => isSlash true e || endsPath e)
  | _ => false

def isSingleDot (segment : String) : Bool :=
  [".", "%2e"].contains (String.ofList (segment.toList.map Char.toLower))

def isDoubleDot (segment : String) : Bool :=
  ["..", ".%2e", "%2e.", "%2e%2e"].contains (String.ofList (segment.toList.map Char.toLower))

/-- The segments without the last one; a drive letter stays. -/
def shorten (done : List String) : List String :=
  match done.getLast? with
  | some last => if isDriveLetter last.toList then done else done.dropLast
  | none => done

/-- The segments after one more was read; `more` says that a slash ended it. In a `file` URL a drive
letter that comes first is written with a colon. -/
def addSegment (file : Bool) (done : List String) (segment : String) (more : Bool) : List String :=
  if isDoubleDot segment then (if more then shorten done else shorten done ++ [""])
  else if isSingleDot segment then (if more then done else done ++ [""])
  else if file && done.isEmpty && isDriveLetter segment.toList then
    [.ofList (segment.toList.take 1 ++ [':'])]
  else done ++ [segment]

/-- The segments of a path text, added to `done`; `open_` holds the characters of the segment that
is being read. -/
def segmentsFrom (special file : Bool) (done : List String) (open_ : List Char) : List Char →
    List String
  | [] => addSegment file done (encode pathSet open_) false
  | c :: s =>
    if isSlash special c then
      segmentsFrom special file (addSegment file done (encode pathSet open_) true) [] s
    else segmentsFrom special file done (open_ ++ [c]) s

/-- A `file` path has no empty segments at its start. -/
def trimFile (parts : List String) : List String :=
  let rest := parts.dropWhile (· == "")
  if rest.isEmpty then [""] else rest

/-- The path that continues `done` with the given text. -/
def pathFrom (scheme : String) (done : List String) (s : List Char) : List String :=
  let parts := segmentsFrom (isSpecial scheme) (scheme == "file") done [] s
  if scheme == "file" then trimFile parts else parts

/-- The path behind an authority. Only schemes without a fixed structure may have none. -/
def pathAfterAuthority (scheme : String) (s : List Char) : List String :=
  match s with
  | [] => if isSpecial scheme then [""] else []
  | c :: rest => pathFrom scheme [] (if isSlash (isSpecial scheme) c then rest else s)

/-! ## Query and fragment -/

/-- A URL whose query and fragment are read from the rest of the input. -/
def withRest (u : Url) (rest : List Char) : Url :=
  let fragmentOf (s : List Char) : Option String :=
    match s with
    | [] => none
    | _ :: f => some (encode fragmentSet f)
  match rest with
  | '?' :: s =>
    { u with
      query := some (encode (querySet (isSpecial u.scheme)) (s.takeWhile (· != '#')))
      fragment := fragmentOf (s.dropWhile (· != '#')) }
  | s => { u with query := none, fragment := fragmentOf s }

/-! ## Authorities -/

/-- The host of a scheme without a fixed structure. -/
def plainHost (s : List Char) : Except Fault Host :=
  if s.any fun c => ['\x00', '\t', '\n', '\r', ' ', '#', '/', ':', '<', '>', '?',
      '@', '[', '\\', ']', '^', '|'].contains c then .error .badHostCharacter
  else .ok (.domain (encode isControl s))

/-- The host that a domain stands for. -/
def domainHost (s : List Char) : Except Fault Host :=
  match domainToAscii? (percentDecode (utf8 (.ofList s))) with
  | none => .error .badDomain
  | some [] => .error .emptyHost
  | some domain =>
    if endsInNumber domain then
      match ipv4? domain with
      | some n => .ok (.ipv4 n)
      | none => .error .badIpv4
    else .ok (.domain (.ofList domain))

/-- The host of a text: an address in brackets, or what `other` makes of it. -/
def hostOf (other : List Char → Except Fault Host) (s : List Char) : Except Fault Host :=
  match s with
  | '[' :: rest =>
    if rest.getLast? = some ']' then
      match ipv6? rest.dropLast with
      | some pieces => .ok (.ipv6 pieces)
      | none => .error .badIpv6
    else .error .badIpv6
  | s => other s

/-- The text up to the first colon that stands in no brackets. -/
def hostLength (inBrackets : Bool) : List Char → Nat
  | [] => 0
  | c :: s =>
    if c = ':' ∧ !inBrackets then 0
    else hostLength (if c = '[' then true else if c = ']' then false else inBrackets) s + 1

/-- The port in front of the input, unless it is the default one or has no digits. -/
def port (scheme : String) (s : List Char) : Except Fault (Option Nat × List Char) :=
  let digits := s.takeWhile Char.isDigit
  let rest := s.dropWhile Char.isDigit
  let n := digits.foldl (fun n c => 10 * n + (c.toNat - 48)) 0
  let ends := match rest with
    | [] => true
    | c :: _ => isSlash true c || endsPath c
  if 65535 < n ∨ !ends then .error .badPort
  else if digits.isEmpty ∨ defaultPort? scheme = some n then .ok (none, rest)
  else .ok (some n, rest)

/-- The characters before the last `@`, if there is one, and those after it. -/
def splitUser (s : List Char) : Option (List Char) × List Char :=
  if s.contains '@' then
    let host := (s.reverse.takeWhile (· != '@')).reverse
    (some (s.take (s.length - host.length - 1)), host)
  else (none, s)

/-- User name and password, each percent-encoded. -/
def userOf (s : List Char) : String × String :=
  (encode userinfoSet (s.takeWhile (· != ':')),
    encode userinfoSet ((s.dropWhile (· != ':')).drop 1))

/-- The URL whose authority starts the input. -/
def afterSlashes (scheme : String) (s : List Char) : Except Fault Url := do
  let special := isSpecial scheme
  let ends (c : Char) : Bool := isSlash special c || endsPath c
  let authority := s.takeWhile (!ends ·)
  let rest := s.dropWhile (!ends ·)
  let (user, hostPort) := splitUser authority
  if user = some [] ∧ hostPort.isEmpty ∧ !rest.isEmpty then throw .emptyHost
  let (username, password) := userOf (user.getD [])
  let n := hostLength false hostPort
  let hostText := hostPort.take n
  if special ∧ hostText.isEmpty then throw .emptyHost
  let host ← hostOf (if special then domainHost else plainHost) hostText
  let portText := hostPort.drop n
  if hostText.isEmpty ∧ !portText.isEmpty then throw .emptyHost
  let (number, rest) ← match portText with
    | _ :: p => port scheme (p ++ rest)
    | [] => pure (none, rest)
  if hostText.isEmpty ∧ (username ≠ "" ∨ password ≠ "") then throw .emptyHost
  let path := rest.takeWhile (!endsPath ·)
  return withRest
    { scheme
      authority := some { username, password, host, port := number }
      path := .segments (pathAfterAuthority scheme path) }
    (rest.dropWhile (!endsPath ·))

/-! ## Files -/

def fileUrl (host : Host) (parts : List String) : Url :=
  { scheme := "file", authority := some { host }, path := .segments parts }

def noHost : Host := .domain ""

/-- The segments of a URL with a structured path. -/
def segmentsOf (u : Url) : List String :=
  match u.path with
  | .segments parts => parts
  | .text _ => []

/-- The host of a URL, or the empty one. -/
def hostOrEmpty (u : Url) : Host :=
  (u.authority.map (·.host)).getD noHost

/-- A `file` URL whose host starts the input. -/
def fileAfterSlashes (s : List Char) : Except Fault Url := do
  let ends (c : Char) : Bool := isSlash true c || endsPath c
  let hostText := s.takeWhile (!ends ·)
  let drive := isDriveLetter hostText
  let s := if drive then s else s.dropWhile (!ends ·)
  let path := s.takeWhile (!endsPath ·)
  let rest := s.dropWhile (!endsPath ·)
  let bare := withRest (fileUrl noHost (pathFrom "file" [] path)) rest
  if drive ∨ hostText.isEmpty then return bare
  let host ← hostOf domainHost hostText
  if host = .domain "localhost" then return bare
  let parts := segmentsFrom true true [] [] (match path with
    | c :: p => if isSlash true c then p else path
    | [] => [])
  let host := if (parts.head?.map isPlainDriveLetter).getD false then noHost else host
  return withRest (fileUrl host (trimFile parts)) rest

/-- A `file` URL, read against a base that may be one as well. -/
def fileFrom (base : Option Url) (s : List Char) : Except Fault Url :=
  let path (s : List Char) := s.takeWhile (!endsPath ·)
  let rest (s : List Char) := s.dropWhile (!endsPath ·)
  match s with
  | c :: d :: s' =>
    if isSlash true c ∧ isSlash true d then fileAfterSlashes s'
    else if isSlash true c then fromRoot base (d :: s')
    else relative base (c :: d :: s') path rest
  | [c] => if isSlash true c then fromRoot base [] else relative base [c] path rest
  | [] => relative base [] path rest
where
  /-- A path from the root; host and drive letter are the base's. -/
  fromRoot (base : Option Url) (s : List Char) : Except Fault Url :=
    let path := s.takeWhile (!endsPath ·)
    let rest := s.dropWhile (!endsPath ·)
    match if startsWithDriveLetter s then none else base with
    | none => .ok (withRest (fileUrl noHost (pathFrom "file" [] path)) rest)
    | some b =>
      match (segmentsOf b).head? with
      | some first =>
        if isPlainDriveLetter first then
          .ok (withRest (fileUrl noHost (pathFrom "file" [first] path)) rest)
        else .ok (withRest (fileUrl (hostOrEmpty b) (pathFrom "file" [] path)) rest)
      | none => .ok (withRest (fileUrl (hostOrEmpty b) (pathFrom "file" [] path)) rest)
  /-- A path from where the base is. -/
  relative (base : Option Url) (s : List Char) (path rest : List Char → List Char) :
      Except Fault Url :=
    match base with
    | none => .ok (withRest (fileUrl noHost (pathFrom "file" [] (path s))) (rest s))
    | some b =>
      match s with
      | [] => .ok { b with fragment := none }
      | '?' :: _ => .ok (withRest b s)
      | '#' :: _ => .ok { b with fragment := (withRest b s).fragment }
      | _ =>
        if startsWithDriveLetter s then
          .ok (withRest (fileUrl noHost (pathFrom "file" [] (path s))) (rest s))
        else
          let parts := segmentsOf b
          let kept := match parts.getLast? with
            | some last => if isPlainDriveLetter last then parts else parts.dropLast
            | none => parts
          .ok (withRest { b with path := .segments (pathFrom "file" kept (path s)) } (rest s))

/-! ## Relative references -/

/-- The input read against a base that is no `file` URL and has a structured path. -/
def relativeTo (base : Url) (s : List Char) : Except Fault Url :=
  let path (s : List Char) := s.takeWhile (!endsPath ·)
  let rest (s : List Char) := s.dropWhile (!endsPath ·)
  match s with
  | [] => .ok { base with fragment := none }
  | '?' :: _ => .ok (withRest base s)
  | '#' :: _ => .ok { base with fragment := (withRest base s).fragment }
  | c :: s' =>
    if isSlash true c then
      let slashes := s.takeWhile (isSlash true)
      if 2 ≤ slashes.length then
        match s with
        | '/' :: '/' :: s'' => afterSlashes base.scheme s''
        | _ => afterSlashes base.scheme (s.drop slashes.length)
      else .ok (withRest { base with path := .segments (pathFrom base.scheme [] (path s')) }
        (rest s'))
    else
      .ok (withRest
        { base with path := .segments (pathFrom base.scheme (segmentsOf base).dropLast (path s)) }
        (rest s))

/-- The URL of the text behind a scheme. -/
def afterScheme (base : Option Url) (scheme : String) (s : List Char) : Except Fault Url :=
  if scheme = "file" then fileFrom (base.filter (·.scheme == "file")) s
  else if isSpecial scheme then
    let slashes := s.takeWhile (isSlash true)
    match base with
    | some b =>
      if slashes.length < 2 ∧ b.scheme = scheme then relativeTo b s
      else afterSlashes scheme (s.drop slashes.length)
    | none => afterSlashes scheme (s.drop slashes.length)
  else
    let path := s.takeWhile (!endsPath ·)
    let rest := s.dropWhile (!endsPath ·)
    match s with
    | '/' :: '/' :: s' => afterSlashes scheme s'
    | '/' :: _ =>
      let segments := pathFrom scheme [] (path.drop 1)
      .ok (withRest { scheme, authority := none, path := .segments segments } rest)
    | _ => .ok (withRest { scheme, authority := none, path := .text (encode isControl path) } rest)

/-- The URL that a text stands for, read against a base if there is one. -/
def parseWith (base : Option Url) (text : String) : Except Fault Url :=
  let s := cleaned text.toList
  match scheme? s with
  | some (scheme, rest) => afterScheme base scheme rest
  | none =>
    match base with
    | none => .error .noBase
    | some b =>
      match s with
      | '#' :: _ => .ok { b with fragment := (withRest b s).fragment }
      | _ =>
        match b.path with
        | .text _ => .error .baseCannotResolve
        | .segments _ => if b.scheme = "file" then fileFrom (some b) s else relativeTo b s

/-- The URL of a text that needs no base. -/
def parse (text : String) : Except Fault Url := parseWith none text

/-- The URL that a reference on the page `base` leads to. -/
def resolve (base : Url) (reference : String) : Except Fault Url := parseWith (some base) reference

end Rebadge.Url
