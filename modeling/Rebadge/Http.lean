import Rebadge.Url.Parser
import Rebadge.Workspace

/-!
# Requests

A network answers requests or says why it cannot. Redirects are followed, and an answer that reports
an error is a failure.
-/

namespace Rebadge

/-- An answer to a request. -/
structure Response where
  status : Nat
  /-- What the status is called. -/
  reason : String
  /-- Where a redirect leads. -/
  location : Option String := none
  body : Content

/-- What answers requests. Where no answer comes, the causes are given from the outermost to the
innermost. -/
structure Network where
  exchange : Request → Except (List String) Response

/-- The network on which nothing can be reached. -/
def Network.unreachable : Network where
  exchange _ := .error
    ["client error (Connect)", "tcp connect error", "Network is unreachable (os error 101)"]

namespace Http

/-- The kind of content that is asked for: an index in JSON. -/
def indexType : String := "application/vnd.pypi.simple.v1+json"

/-- How many redirects are followed. -/
def maxRedirects : Nat := 10

/-- Statuses that redirect to another location. -/
def isRedirect (status : Nat) : Bool := [301, 302, 303, 307, 308].contains status

/-- The URL without a user. -/
def withoutUser (u : Url) : Url :=
  { u with authority := u.authority.map fun a => { a with username := "", password := "" } }

/-- Requests for the URL are possible. -/
def isSupported (u : Url) : Bool := u.scheme == "http" || u.scheme == "https"

/-- The request for a URL, which does not tell the fragment. -/
def requestFor (u : Url) : Request := ⟨({ u with fragment := none } : Url).toText, indexType⟩

/-- The location that a response redirects to, if it does. -/
def redirect? (u : Url) (r : Response) : Option Url :=
  if isRedirect r.status then r.location.bind fun l => (u.resolve l).toOption else none

/-- One request and its answer. -/
def exchange (net : Network) (u : Url) : Act Response := do
  if !isSupported u then throw (.http (.unsupportedScheme u.toText))
  match net.exchange (requestFor u) with
  | .error causes => throw (.http (.notSent u.toText causes))
  | .ok r => do
    modify fun w => { w with requests := w.requests ++ [requestFor u] }
    return r

/-- The answer of a URL or of the one that it redirects to, with that URL. The number says how many
redirects may still be followed. -/
def follow (net : Network) : Nat → Url → Act (Url × Response)
  | more, u => do
    let r ← exchange net u
    match redirect? u r, more with
    | none, _ => return (u, r)
    | some _, 0 => throw (.http (.tooManyRedirects u.toText))
    | some next, more + 1 => follow net more next

/-- Statuses that report an error, of the client or of the server. Those from 600 on report none. -/
def isError (status : Nat) : Bool := 400 ≤ status && status < 600

/-- The answer to a request, unless it reports an error. -/
def get (net : Network) (u : Url) : Act Response := do
  let (u, r) ← follow net maxRedirects (withoutUser u)
  if isError r.status then throw (.http (.status r.status r.reason u.toText))
  return r

/-- The answer to a request for a URL given as text. -/
def getText (net : Network) (text : String) : Act Response := do
  match Url.parse text with
  | .error fault => throw (.http (.noUrl fault))
  | .ok u => get net u

/-- The body of an answer as text. -/
def bodyText (r : Response) : String := lossyText r.body.image

end Http
end Rebadge
