import Rebadge.Text.Basic

/-!
# Help

The short form has a line for each option, the long form a paragraph.
-/

namespace Rebadge.Cli

/-- How the command is used. -/
def usageLine (command : String) : String := "Usage: " ++ command ++ " [OPTIONS] <VERSION>"

/-- What is printed when the command line cannot be understood. -/
def usageError (command : String) : String :=
  "error: invalid arguments\n\n" ++ usageLine command ++ "\n\nFor more information, try '--help'.\n"

/-- An option with its help, the values it may have with theirs, and what else is said about it. -/
structure Topic where
  name : String
  help : String
  values : List (String × String) := []
  notes : List String := []

/-- The arguments. -/
def argumentTopics : List Topic :=
  [{ name := "<VERSION>", help := "Version to fetch, or \x60nightly\x60" }]

/-- The options, given the variable that may name a configuration file and its value. -/
def optionTopics (configVariable : String) (envConfig : Option String) (long : Bool) : List Topic :=
  [{ name := "    --config <CONFIG>"
     help := "TOML file overriding the built-in fork settings"
     notes := ["[env: " ++ configVariable ++ "=" ++ envConfig.getD "" ++ "]"] },
   { name := "    --dist <DIST>", help := "Output directory (defaults to \x60dist\x60)" },
   { name := "    --archiver <ARCHIVER>"
     help := "Archive backend"
     values := [("native", "zip/tar/flate2 in process"),
       ("command", "External zip, unzip and tar commands")]
     notes := ["[default: native]"] },
   { name := "-v, --verbose", help := "Enable verbose output" },
   { name := "-h, --help"
     help := if long then "Print help (see a summary with '-h')"
     else "Print help (see more with '--help')" }]

/-- Blanks. -/
def blanks (n : Nat) : String := .ofList (List.replicate n ' ')

/-- The line of a topic, with the help starting behind `width` characters. -/
def shortTopic (width : Nat) (t : Topic) : String :=
  let values :=
    if t.values = [] then []
      else ["[possible values: " ++ ", ".intercalate (t.values.map (·.1)) ++ "]"]
  "  " ++ t.name ++ blanks (width - t.name.length) ++ "  " ++
    " ".intercalate (t.help :: t.notes ++ values) ++ "\n"

/-- The lines for the values of a topic. -/
def valueLines (values : List (String × String)) : String :=
  let width := values.foldl (fun n v => max n v.1.length) 0
  if values = [] then ""
  else
    "\n\n" ++ blanks 10 ++ "Possible values:" ++ String.join (values.map fun (name, text) =>
      "\n" ++ blanks 10 ++ "- " ++ name ++ ": " ++ blanks (width - name.length) ++ text)

/-- The paragraph of a topic. -/
def longTopic (t : Topic) : String :=
  let notes := if t.notes = [] then "" else "\n" ++ blanks 10 ++ "\n" ++ blanks 10 ++
    " ".intercalate t.notes
  "  " ++ t.name ++ "\n" ++ blanks 10 ++ t.help ++ notes ++ valueLines t.values ++ "\n"

/-- The topics of a section. -/
def sectionText (long : Bool) (title : String) (topics : List Topic) : String :=
  let width := topics.foldl (fun n t => max n t.name.length) 0
  title ++ ":\n" ++
    if long then "\n".intercalate (topics.map longTopic)
    else String.join (topics.map (shortTopic width))

/-- The help of the command. -/
def help (command configVariable : String) (envConfig : Option String) (long : Bool) : String :=
  "Republish Python release artifacts under a forked package name\n\n" ++
    usageLine command ++ "\n\n" ++ sectionText long "Arguments" argumentTopics ++ "\n" ++
    sectionText long "Options" (optionTopics configVariable envConfig long)

end Rebadge.Cli
