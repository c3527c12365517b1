import Rebadge.Workspace

/-!
# Packing and unpacking tarballs in process

Unpacking makes the files and links of a tarball in its order and the directories at the end. A
member with a `..` in its path is left out, and no member may be made in a directory that a link
leads out of the destination. Packing follows links, so that a tarball holds files and directories
only.
-/

namespace Rebadge.Archiver.Native

/-! ## Unpacking -/

/-- The names that lead to a member from the directory that it is unpacked in; a member with a `..`
in its path has none. -/
def memberNames? (path : String) : Option (List String) :=
  (Path.components path).foldr (fun part names? =>
    match part, names? with
    | _, none => none
    | .root, names? | .current, names? => names?
    | .parent, some _ => none
    | .normal name, some names => some (name :: names)) (some [])

/-- The location of something that is there. -/
def canonical (d : Disk) (path : String) : Except IoError Location :=
  match d.find path true with
  | .ok (l, _) => .ok l
  | .error e => .error (.canonical path e)

/-- The absolute text of a location. -/
def locationText (l : Location) : String :=
  "/" ++ "/".intercalate l

/-- Fails unless a path leads to the destination or below it. -/
def checkInside (d : Disk) (dest path : String) : Except IoError Unit := do
  let l ← canonical d path
  let top ← canonical d dest
  if top.isPrefixOf l then .ok () else .error (.outside (locationText top))

/-- Makes the directories that lead from a directory to a member, where they are missing. -/
def makeLeading (dest : String) : String → List String → Act Unit
  | _, [] => pure ()
  | dir, name :: rest => do
    let path := Path.join dir name
    if ((← Act.disk).find path false).toOption.isNone then
      Act.look (checkInside · dest dir)
      Act.makeDirs path
    makeLeading dest path rest

/-- The act, with another error in the place of an input or output error. -/
def reporting {α : Type} (e : IoError) (act : Act α) : Act α := do
  match ← Act.attempt act with
  | .ok a => return a
  | .error (.io _) => throw (.io e)
  | .error other => throw other

/-- Makes a node at a path, in the place of a file or link that may be there. -/
def makeNode (path : String) (n : Node) : Act Unit := do
  if ((← Act.disk).find path false).toOption.isSome then Act.change (·.unlink path)
  Act.change (·.create path n)

/-- The permissions that a mode gives. -/
def permissions (mode : Nat) : Nat := mode % 0o1000

/-- Makes a directory with the given permissions, or gives them to the one that is there. -/
def makeDirectory (path : String) (mode : Nat) : Act Unit := do
  let (d, outcome) := (← Act.disk).ensureDir path
  Act.setDisk d
  Act.ofExcept (outcome.mapError .io)
  Act.change (·.setMode path (permissions mode))

/-- Makes what a member stands for at a path. -/
def makeMember (path : String) (m : Tar.Member Content) : Act Unit :=
  match m.body with
  | .dir => makeDirectory path m.mode
  | .link target => do
    if target = "" then throw (.io (.os .notFound))
    makeNode path (.link target)
  | .file data => makeNode path (.file data (permissions m.mode))

/-- Unpacks a member below a directory. -/
def unpackMember (dest : String) (m : Tar.Member Content) : Act Unit :=
  match memberNames? m.path with
  | none | some [] => pure ()
  | some (name :: names) => do
    let leading := (name :: names).dropLast
    let dir := leading.foldl Path.join dest
    reporting (.unpackDir dir) (makeLeading dest dest leading)
    Act.look (checkInside · dest dir)
    let path := (name :: names).foldl Path.join dest
    reporting (.unpack path) (makeMember path m)

/-- The members in the order in which they are unpacked: directories last, those with greater paths
first. -/
def unpackOrder (members : List (Tar.Member Content)) : List (Tar.Member Content) :=
  members.filter (!·.isDir) ++
    Sorted.sort (fun a b => Text.le b.path a.path) (members.filter (·.isDir))

/-- Unpacks a tarball into a directory, which is made if it is missing. -/
def extractTarball (tarball dest : String) : Act Unit := do
  let (_, n) ← Act.look (·.find tarball true)
  if ((← Act.disk).find dest false).toOption.isNone then
    reporting (.unpackDir dest) (Act.makeDirs dest)
  let top :=
    match (← Act.disk).find dest true with
    | .ok (l, _) => locationText l
    | .error _ => dest
  match n with
  | .file c _ => do
    let members ← Act.ofExcept (c.tarMembers.mapError .io)
    (unpackOrder members).forM (unpackMember top)
  | _ => throw (.io .unreadableTarball)

/-! ## Packing -/

/-- The path of a member: the names of a relative path, or `.` if there are none. The argument
`before` holds what was taken already. -/
def memberPath (before : List String) : List Path.Component → Except IoError String
  | [] => .ok (if before = [] then "." else "/".intercalate before)
  | .root :: _ => .error .absoluteInTarball
  | .parent :: _ => .error (.parentInTarball ("/".intercalate before))
  | .current :: rest => memberPath before rest
  | .normal name :: rest => memberPath (before ++ [name]) rest

/-- The members packed so far and whether all could be packed. -/
abbrev Packed := List (Tar.Member Content) × Except Failure Unit

/-- Goes on packing unless something could not be packed. -/
def Packed.andThen (p : Packed) (next : Unit → Packed) : Packed :=
  match p with
  | (members, .ok ()) =>
    let q := next ()
    (members ++ q.1, q.2)
  | failed => failed

/-- One member, if it can be made. -/
def packOne (m : Except IoError (Tar.Member Content)) : Packed :=
  match m with
  | .ok m => ([m], .ok ())
  | .error e => ([], .error (.io e))

/-- The member for a directory; the directory that a tarball is named after may have no name. -/
def packDirectory (d : Disk) (path name : String) : Packed :=
  if name = "" then ([], .ok ())
  else packOne do
    let memberName ← memberPath [] (Path.components name)
    match ← d.find path true with
    | (_, .dir mode) => .ok ⟨memberName, .dir, mode⟩
    | _ => .error (.os .notADirectory)

/-- The member for a file. -/
def packFile (d : Disk) (path name : String) : Packed :=
  packOne do
    let memberName ← memberPath [] (Path.components name)
    match ← d.find path true with
    | (_, .file c mode) => .ok ⟨memberName, .file c, mode⟩
    | _ => .error (.os .isADirectory)

/-- The members for a directory and all that it holds; the first argument bounds the depth. Links
are followed, and a path that leads through too many of them is an error. -/
def packTree (d : Disk) : Nat → String → String → Packed
  | 0, _, _ => ([], .error (.os .nameTooLong))
  | depth + 1, path, name =>
    match d.list path with
    | .error e => ([], .error (.io e))
    | .ok names =>
      names.foldl (fun (done : Packed) child =>
        done.andThen fun () =>
          let childPath := Path.join path child
          let childName := Path.join name child
          if d.isDir childPath then packTree d depth childPath childName
          else packFile d childPath childName)
        (packDirectory d path name)

/-- Packs a directory of a base directory into a tarball. What was packed before an error stays in
it. -/
def createTarball (tarball base dirName : String) : Act Unit := do
  Act.change (·.write tarball (.tar []))
  let (members, outcome) := packTree (← Act.disk) Disk.pathLimit (Path.join base dirName) dirName
  Act.change (·.write tarball (.tar members))
  Act.ofExcept outcome

end Rebadge.Archiver.Native
