import Rebadge.Failure

/-!
# Reporting failures

A failure is reported with what was being done and, below it, the chain of causes. Causes are
numbered if there is more than one.
-/

namespace Rebadge.Cli

/-- The text with each line but the first indented. -/
def indented (width : Nat) (text : String) : String :=
  ("\n" ++ String.ofList (List.replicate width ' ')).intercalate (Text.split text '\n')

/-- One cause of a numbered chain. -/
def numberedCause (i : Nat) (text : String) : String :=
  let digits := toString i
  String.ofList (List.replicate (5 - digits.length) ' ') ++ digits ++ ": " ++ indented 7 text

/-- The lines for a chain of causes. -/
def causeLines : List String → List String
  | [text] => ["    " ++ indented 4 text]
  | texts => texts.zipIdx.map fun (text, i) => numberedCause i text

/-- The report of a failure that ended what is named. -/
def report (doing : String) (f : Failure) : String :=
  "Error: " ++ doing ++ "\n\nCaused by:\n" ++
    String.join ((causeLines (f.message :: f.causes)).map (· ++ "\n"))

end Rebadge.Cli
