import Rebadge.Archiver.External
import Rebadge.Archiver.Native
import Rebadge.Cli.Help
import Rebadge.Cli.Options
import Rebadge.Cli.Report
import Rebadge.Run

/-!
# The command line

The command fetches a release or the nightly one, makes its artifacts those of the fork, and prints
where they are.
-/

namespace Rebadge.Cli

/-- What the command depends on besides its arguments and the workspace. -/
structure Surroundings where
  /-- The name of the command. -/
  command : String
  /-- The variable that may name a configuration file. -/
  configVariable : String
  /-- The value of that variable. -/
  envConfig : Option String
  toolbox : Toolbox
  network : Network
  downloads : Schedule := .inOrder
  patches : Schedule := .inOrder

/-- How the command ended and what it printed. -/
structure Outcome where
  code : Nat
  out : String := ""
  err : String := ""
deriving DecidableEq, Repr

/-- The archiver of a backend. -/
def archiver (toolbox : Toolbox) : Backend → Archiver
  | .native => .native
  | .command => .external toolbox {}

/-- The configuration that the options ask for. -/
def configOf (o : Options) : Act Config := do
  let c ← match o.config with
    | some path => Config.load path
    | none => pure {}
  return { c with distDir := o.dist.getD c.distDir }

/-- What is being done while the configuration is read. -/
def loading (o : Options) : String := "loading config " ++ o.config.getD ""

/-- What is being done during a run. -/
def patching (o : Options) : String := "patching " ++ o.version

/-- Carries out what the options ask for. -/
def perform (s : Surroundings) (o : Options) : Act Outcome := do
  match ← Act.attempt (configOf o) with
  | .error f => return { code := 1, err := report (loading o) f }
  | .ok config =>
    let setting : Run.Setting :=
      { config, archiver := archiver s.toolbox o.backend, network := s.network
        downloads := s.downloads, patches := s.patches }
    match ← Act.attempt (Run.run setting (.ofToken o.version)) with
    | .error f => return { code := 1, err := report (patching o) f }
    | .ok patched => return { code := 0, out := String.join (patched.map (·.path ++ "\n")) }

/-- Carries out a command line. -/
def execute (s : Surroundings) (args : List String) : Act Outcome :=
  match parseOptions args s.envConfig with
  | .ok o => perform s o
  | .error (.help long) =>
    return { code := 0, out := help s.command s.configVariable s.envConfig long }
  | .error .usage => return { code := 2, err := usageError s.command }

end Rebadge.Cli
