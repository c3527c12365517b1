import Rebadge.Text.Basic

/-!
# Command-line options

The command line holds one version and options in any order. Options are read from left to right,
and the first thing that is wrong, or a request for help, ends the reading.
-/

namespace Rebadge.Cli

/-- How archives are edited. -/
inductive Backend where
  | native
  | command
deriving DecidableEq, Repr

/-- The backend of a name. -/
def Backend.ofName? (name : String) : Option Backend :=
  if name = "native" then some .native
  else if name = "command" then some .command
  else none

/-- What a command line asks for. -/
structure Options where
  version : String
  config : Option String := none
  dist : Option String := none
  backend : Backend := .native
  verbose : Bool := false
deriving DecidableEq, Repr

/-- Why a command line is not carried out. -/
inductive Halt where
  /-- It asks for help, in its short or its long form. -/
  | help (long : Bool)
  /-- It cannot be understood. -/
  | usage
deriving DecidableEq, Repr

/-- What was read so far. -/
structure Draft where
  version : Option String := none
  config : Option String := none
  dist : Option String := none
  backend : Option Backend := none
  verbose : Bool := false
deriving DecidableEq, Repr

namespace Draft

/-- Takes an argument that is no option. -/
def setVersion (d : Draft) (arg : String) : Except Halt Draft :=
  if d.version.isSome then .error .usage else .ok { d with version := some arg }

/-- Takes an option without a value. -/
def setVerbose (d : Draft) : Except Halt Draft :=
  if d.verbose then .error .usage else .ok { d with verbose := true }

/-- Takes an option with a value. Each may be given once, and a path must not be empty. -/
def setOption (d : Draft) (name value : String) : Except Halt Draft :=
  if name = "config" ∧ d.config = none ∧ value ≠ "" then .ok { d with config := some value }
  else if name = "dist" ∧ d.dist = none ∧ value ≠ "" then .ok { d with dist := some value }
  else if name = "archiver" ∧ d.backend = none then
    match Backend.ofName? value with
    | some b => .ok { d with backend := some b }
    | none => .error .usage
  else .error .usage

/-- Takes a group of options of one letter. -/
def setLetters (d : Draft) : List Char → Except Halt Draft
  | [] => .ok d
  | 'v' :: rest => do (← d.setVerbose).setLetters rest
  | 'h' :: _ => .error (.help false)
  | _ :: _ => .error .usage

end Draft

/-- The options that have values. -/
def valued : List String := ["config", "dist", "archiver"]

/-- Whether an argument is taken for an option where a value is expected. -/
def looksLikeOption (arg : String) : Bool :=
  Text.hasPrefix arg "-" && arg != "-"

/-- The name of a long option and the value after an equals sign. -/
def long? (arg : String) : Option (String × Option String) :=
  (Text.stripPrefix? "--" arg).map fun rest =>
    let name := rest.toList.takeWhile (· != '=')
    (.ofList name, if Text.hasChar rest '=' then some (.ofList (rest.toList.drop (name.length + 1)))
      else none)

/-- Takes a long option without a value of its own. -/
def setFlag (d : Draft) (name : String) (value : Option String) : Except Halt Draft :=
  if value.isSome then .error .usage
  else if name = "verbose" then d.setVerbose
  else if name = "help" then .error (.help true)
  else .error .usage

/-- Takes all arguments. After `--` none of them is an option. -/
def readArgs (d : Draft) (args : List String) : Except Halt Draft :=
  match args with
  | [] => .ok d
  | arg :: rest =>
    if arg = "--" then rest.foldlM Draft.setVersion d
    else
      match long? arg with
      | some (name, value) =>
        if name ∉ valued then do readArgs (← setFlag d name value) rest
        else
          match value with
          | some v => do readArgs (← d.setOption name v) rest
          | none =>
            match rest with
            | [] => .error .usage
            | v :: rest' =>
              if looksLikeOption v then .error .usage else do readArgs (← d.setOption name v) rest'
      | none =>
        if looksLikeOption arg then do readArgs (← d.setLetters (arg.toList.drop 1)) rest
        else do readArgs (← d.setVersion arg) rest
termination_by args.length

/-- The options of a command line. A configuration file that the environment names counts where the
command line names none. -/
def parseOptions (args : List String) (envConfig : Option String) : Except Halt Options := do
  let d ← readArgs {} args
  let config ←
    match d.config, envConfig with
    | some path, _ => pure (some path)
    | none, some "" => .error .usage
    | none, env => pure env
  match d.version with
  | none => .error .usage
  | some version =>
    return {
      version, config, dist := d.dist, backend := d.backend.getD .native, verbose := d.verbose }

end Rebadge.Cli
