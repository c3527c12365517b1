import Rebadge.Failure
import Rebadge.Url.Parser

/-!
# Releases and their artifacts

A release is named by its version, or it is the nightly one. Its artifacts are found on a page of
links or in an index of files; in both, the first of several files with one name counts.
-/

namespace Rebadge

/-- Which artifacts to fetch. -/
inductive Channel where
  /-- Every file of the version in the index. -/
  | release (version : String)
  /-- Every file of the nightly page. -/
  | nightly
deriving DecidableEq, Repr

/-- The channel that a token names. -/
def Channel.ofToken (token : String) : Channel :=
  if token = "nightly" then .nightly else .release token

/-- The kinds of artifacts. -/
inductive ArtifactKind where
  | wheel
  | sdist
  | other
deriving DecidableEq, Repr

/-- The kind of an artifact, which its name ends with. -/
def ArtifactKind.ofFilename (name : String) : ArtifactKind :=
  if Text.hasSuffix name ".whl" then .wheel
  else if Text.hasSuffix name ".tar.gz" then .sdist
  else .other

/-- A file that is offered for download. -/
structure Artifact where
  filename : String
  url : String
deriving DecidableEq, Repr

namespace Release

/-- The artifacts without those whose name an earlier one has; `seen` holds names that were met
before. -/
def distinct (seen : List String) : List Artifact → List Artifact
  | [] => []
  | a :: rest =>
    if seen.contains a.filename then distinct seen rest
    else a :: distinct (a.filename :: seen) rest

/-- The artifacts of an index whose names start with package and version. -/
def select (files : List Artifact) (package version : String) : List Artifact :=
  distinct [] (files.filter fun a => Text.hasPrefix a.filename (package ++ "-" ++ version))

/-- Where an artifact is put. Its name must be a single component of a path. -/
def distPath (dist filename : String) : Except Failure String :=
  match Path.components filename with
  | [.normal name] =>
    if name = filename then .ok (Path.join dist name)
      else .error (.malformed filename .notAFileName)
  | _ => .error (.malformed filename .notAFileName)

/-! ## Pages of links -/

/-- What opens a link. -/
def linkMark : List Char := "href=\"".toList

/-- The reference of a link that starts the text: it is not empty and ends at the next quote. -/
def linkAt? (s : List Char) : Option (List Char) :=
  match linkMark.isPrefixOf? s with
  | none => none
  | some rest =>
    let reference := rest.takeWhile (· != '"')
    if reference.isEmpty || !(rest.contains '"') then none else some reference

/-- The references of a page, where `skip` characters at the front belong to a link that was already
met. -/
def linksFrom : Nat → List Char → List String
  | _, [] => []
  | skip + 1, _ :: s => linksFrom skip s
  | 0, c :: s =>
    match linkAt? (c :: s) with
    | some reference =>
      .ofList reference :: linksFrom (linkMark.length + reference.length) s
    | none => linksFrom 0 s

/-- The artifact that a reference leads to, unless it leads to no file. -/
def artifactOf (page : Url) (reference : String) : Except Url.Fault (Option Artifact) :=
  (page.resolve reference).map fun u =>
    match u.lastSegment? with
    | none => none
    | some name => if name = "" then none else some ⟨name, u.toText⟩

/-- The artifacts that a page links to, in the order of their first links. -/
def ofPage (html : String) (page : Url) : Except Url.Fault (List Artifact) :=
  ((linksFrom 0 html.toList).mapM (artifactOf page)).map fun found =>
    distinct [] (found.filterMap id)

end Release
end Rebadge
