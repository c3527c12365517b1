import Rebadge.Cli

/-!
# The program

The program looks at the files that the command line names, carries the command line out on what it
saw, and makes the directories that come out of it. It reaches no network and starts no other
program.
-/

namespace Rebadge

/-- The code of the error that a directory is no file. -/
def directoryCode : UInt32 := 21

/-- What is at a path. -/
def observe (path : String) : IO (Option Node) := do
  try
    let data ← IO.FS.readBinFile path
    return some (.file (.bytes data.toList) Disk.newFileMode)
  catch
    | .inappropriateType _ code _ =>
      return if code = directoryCode then some (.dir Disk.newDirMode) else none
    | _ => return none

/-- The disk with what is at a path and above it. -/
def look (d : Disk) (path : String) : IO Disk := do
  let mut d := d
  for p in (Path.ancestors ((Path.absolute? d.cwdText path).getD "")).reverse do
    let l := (Text.split p '/').filter (· ≠ "")
    if l ≠ [] then
      if let some n ← observe p then d := d.put l n
  return d

/-- What the command depends on here. -/
def surroundings : IO Cli.Surroundings := do
  return {
    command := "rebadge"
    configVariable := "REBADGE_CONFIG"
    envConfig := ← IO.getEnv "REBADGE_CONFIG"
    toolbox := fun _ _ => .error .notFound
    network := .unreachable }

/-- The disk with what matters for the options: the configuration file and the directory for the
artifacts. -/
def lookFor (d : Disk) (o : Cli.Options) : IO Disk := do
  let d ← match o.config with
    | some path => look d path
    | none => pure d
  match Cli.configOf o { disk := d } with
  | .ok c _ => look d c.distDir
  | .error .. => return d

/-- Makes the directories that a disk has and another one does not. -/
def makeNewDirs (before after : Disk) : IO Unit := do
  for (l, n) in after.tree.below [] do
    if n.isDir && (before.tree.get? l).isNone then IO.FS.createDirAll ("/" ++ "/".intercalate l)

/-- Carries out a command line on what is seen of the disk. -/
def runCommandLine (args : List String) : IO UInt32 := do
  let s ← surroundings
  let cwd := (← IO.currentDir).toString
  let start ← look { cwd := (Text.split cwd '/').filter (· ≠ "") } cwd
  let disk ← match Cli.parseOptions args s.envConfig with
    | .ok o => lookFor start o
    | .error _ => pure start
  match Cli.execute s args { disk } with
  | .ok o w => do
    makeNewDirs disk w.disk
    IO.print o.out
    IO.eprint o.err
    return o.code.toUInt32
  | .error f _ => do
    IO.eprintln f.message
    return 1

end Rebadge

/-- Carries out the command line. -/
def main (args : List String) : IO UInt32 := Rebadge.runCommandLine args
