import Rebadge.Archiver

/-!
# The archiver that runs programs

Archives are edited by external programs for ZIP archives and tarballs. What the programs do is a
parameter: any function from the disk and the invocation to the disk afterwards and the way the
program ended. Every program that was started is noted in the journal of the workspace.
-/

namespace Rebadge

/-- How a program ended. -/
inductive Exit where
  | code (n : Nat)
  /-- A signal ended the program. -/
  | killed
deriving DecidableEq, Repr

/-- The code that stands for the way a program ended. -/
def Exit.toInt : Exit → Int
  | code n => n
  | killed => -1

/-- What the programs of a system do. A program that cannot be started is an error. -/
abbrev Toolbox := Disk → Invocation → Except Errno (Disk × Exit)

/-- The names of the programs for archives. -/
structure Programs where
  zip : String := "zip"
  unzip : String := "unzip"
  tar : String := "tar"
deriving DecidableEq, Repr

/-- Notes that a program is started. -/
def Act.noteStart (i : Invocation) : Act Unit :=
  modify fun w => { w with started := w.started ++ [⟨i, w.disk⟩] }

/-- Runs a program in a directory to its end. Any end but that with code zero is an error. -/
def runProgram (toolbox : Toolbox) (program : String) (args : List String)
    (dir : String) : Act Unit := do
  if (program :: dir :: args).any (Text.hasChar · '\x00') then throw (.io .nulInInvocation)
  let (l, n) ← Act.look (·.find dir true)
  if !n.isDir then throw (.os .notADirectory)
  let i : Invocation := ⟨program, args, l⟩
  match toolbox (← Act.disk) i with
  | .error e => throw (.os e)
  | .ok (d, exit) => do
    Act.noteStart i
    Act.setDisk d
    if exit ≠ .code 0 then throw (.command i.line exit.toInt)

namespace Archiver

variable (toolbox : Toolbox) (programs : Programs)

/-- Puts the content in a scratch directory under the entry's own path and has it freshen the
archive, which fails if there is no such entry. -/
def replaceByProgram (archive entry : String) (content : Content) : Act Unit :=
  Act.withScratch fun scratch => do
    let staged := Path.join scratch entry
    Act.makeParents staged
    Act.change (·.write staged content)
    let archive ← Act.look (·.absolute archive)
    runProgram toolbox programs.zip ["-q", "-f", archive, entry] scratch

/-- Edits archives by external programs. Archives are named by absolute paths, since the programs
run in other directories. -/
def external : Archiver where
  replaceEntry := replaceByProgram toolbox programs
  extractEntries archive entries dest := do
    let archive ← Act.look (·.absolute archive)
    let target ← Act.look (·.absolute dest)
    runProgram toolbox programs.unzip (["-q", archive] ++ entries ++ ["-d", target]) dest
  deleteEntries archive entries := do
    let archive ← Act.look (·.absolute archive)
    runProgram toolbox programs.zip (["-q", "-d", archive] ++ entries)
      ((Path.parent? archive).getD ".")
  addTree archive base dirName := do
    let archive ← Act.look (·.absolute archive)
    runProgram toolbox programs.zip ["-q", "-r", archive, dirName] base
  extractTarball tarball dest := do
    let tarball ← Act.look (·.absolute tarball)
    runProgram toolbox programs.tar ["-xzf", tarball] dest
  createTarball tarball base dirName := do
    let tarball ← Act.look (·.absolute tarball)
    runProgram toolbox programs.tar ["-czf", tarball, dirName] base

end Archiver
end Rebadge
