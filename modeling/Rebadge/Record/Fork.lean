import Rebadge.Config

/-!
# The record of the fork

Lines of replaced files get a fresh digest and size; then the package name gives way to the fork's
in the whole text, and local versions are cut. Lines are split at line feeds and paths end at the
first comma.
-/

namespace Rebadge.Record

/-- What precedes the first comma of a line. -/
def pathOf (line : List Char) : List Char :=
  line.takeWhile (· != ',')

/-- The line of a file with the given content. -/
def freshLine (encoding : DigestEncoding) (path : String) (content : Bytes) : String :=
  path ++ "," ++ Digest.ofContent content encoding ++ "," ++ toString content.length

/-- The line, made anew if it has a comma and its path is the one of a replaced file. -/
def forkLine (encoding : DigestEncoding) (replaced : List (String × Bytes)) (line : List Char) :
    List Char :=
  match replaced.find? (fun r => r.1.toList == pathOf line) with
  | some (path, content) =>
    if line.contains ',' then (freshLine encoding path content).toList else line
  | none => line

/-- The text with the fork's name in place of `<package>-` and without local versions. -/
def renameAll (c : Config) (text : String) : String :=
  Version.stripLocalVersion (Text.replaceAll text (c.distName ++ "-") (c.forkDistName ++ "-"))

/-- The record of the fork, after the given files were replaced. -/
def forFork (text : String) (replaced : List (String × Bytes)) (c : Config) : String :=
  renameAll c <| .ofList <|
    Chars.join '\n' ((Chars.split '\n' text.toList).map (forkLine c.digestEncoding replaced))

end Rebadge.Record
