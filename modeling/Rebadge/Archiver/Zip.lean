import Rebadge.Workspace

/-!
# Editing ZIP archives in process

An edit reads all entries, and writes a new archive in the place of the old one. Adding a tree
appends to the archive instead, so that what was added before an error stays.
-/

namespace Rebadge.Archiver.Native

/-- The entries of an archive. A directory can be opened like a file but not read. -/
def openZip (archive : String) : Act (List (Zip.Entry Content)) := do
  match ← Act.look (·.find archive true) with
  | (_, .file c _) => Act.ofExcept (c.zipEntries.mapError .zip)
  | _ => throw (.zip .unreadable)

/-- All new data of an edit can be data of entries. -/
def fits (action : String → Zip.Action Content) (entries : List (Zip.Entry Content)) : Bool :=
  entries.all fun e => (action e.name).data?.all (·.fitsEntry)

/-- Whether the file that takes the place of an archive after an edit can be made, filled and put
there. Where it cannot, nothing is left of it. -/
def rewriting (w : Workspace) (archive : String) (action : String → Zip.Action Content)
    (entries : List (Zip.Entry Content)) : Except IoError Unit := do
  w.disk.beside archive
  w.grant archive .make
  w.grant archive (.fill (Zip.edit action entries))
  if fits action entries then w.grant archive (.place (Zip.edit action entries))
  else .error .entryTooLarge

/-- Writes the archive anew, with an action on each entry; ends with the entries that were there
before. -/
def editArchive (archive : String) (action : String → Zip.Action Content) :
    Act (List (Zip.Entry Content)) := do
  let entries ← openZip archive
  Act.ofExcept ((rewriting (← get) archive action entries).mapError .io)
  Act.change (·.replace archive (.zip (Zip.edit action entries)))
  return entries

/-- Replaces an entry. The archive is written anew even if it has no such entry, which then is an
error. -/
def replaceEntry (archive entry : String) (content : Content) : Act Unit := do
  let entries ← editArchive archive (Zip.replacing entry content)
  if entry ∉ Zip.names entries then throw (.malformed archive (.noEntry entry))

/-- Deletes entries. Names that the archive does not have are ignored. -/
def deleteEntries (archive : String) (entries : List String) : Act Unit := do
  discard (editArchive archive (Zip.deleting entries))

/-! ## Extraction -/

/-- How far below its start a path of these components ends, if it never leads above it. -/
def depth? : Nat → List Path.Component → Option Nat
  | n, [] => some n
  | _, .root :: _ => none
  | n, .current :: rest => depth? n rest
  | 0, .parent :: _ => none
  | n + 1, .parent :: rest => depth? n rest
  | n, .normal _ :: rest => depth? (n + 1) rest

/-- Whether the path of an entry stays below the directory that the entry is extracted in. -/
def isEnclosed (name : String) : Bool :=
  !Text.hasChar name '\x00' && (depth? 0 (Path.components name)).isSome

/-- Whether an entry is extracted as a directory. -/
def isDirectoryName (name : String) : Bool :=
  match name.toList.getLast? with
  | some c => c == '/' || c == '\\'
  | none => false

/-- An entry as it is read while a file is written. The file is emptied before, so that nothing is
left to read if it is the archive's own, neither of this entry nor of later ones. -/
def readInto (target archive : String) (d : Disk) (e : Zip.Entry Content) : Zip.Entry Content :=
  match d.find archive true with
  | .ok (l, .file c _) =>
    if c.zipEntries.toOption.isSome ∧ (d.locate target true).toOption ≠ some l then e else e.emptied
  | _ => e.emptied

/-- Extracts one entry. What an entry holds is written even if it turns out not to be intact. -/
def extractEntry (archive : String) (entries : List (Zip.Entry Content))
    (dest name : String) : Act Unit :=
  match Zip.find? entries name with
  | none => throw (.zip .entryNotFound)
  | some e => do
    if !isEnclosed name then throw (.malformed archive (.unsafePath name))
    let target := Path.join dest name
    if isDirectoryName name then Act.makeDirs target
    else
      Act.makeParents target
      let e := readInto target archive (← Act.disk) e
      Act.change (·.write target e.data)
      if !e.intact then throw (.io .invalidChecksum)

/-- Extracts entries one after the other. -/
def extractEntries (archive : String) (names : List String) (dest : String) : Act Unit := do
  let entries ← openZip archive
  names.forM (extractEntry archive entries dest)

/-! ## Adding a tree -/

/-- A file or directory of a tree that is added: its path and whether it is a directory. -/
structure Item where
  path : String
  isDir : Bool
deriving DecidableEq, Repr

/-- What a directory walk from a path meets, in order. Links on the way are not followed; a link at
the start must lead somewhere. -/
def itemsFrom (d : Disk) (root : String) : Except IoError (List Item) := do
  let (l, n) ← d.find root false
  let _ ← d.find root true
  if n.isDir then
    return (d.tree.below l).map fun (rest, m) => ⟨rest.foldl Path.join root, m.isDir⟩
  else return [⟨root, false⟩]

/-- The name of the entry for a path below a base directory. -/
def entryName? (base path : String) : Option String :=
  (Path.relativeTo? base path).map fun parts => "/".intercalate (parts.map (·.text))

/-- The name of the entry for a directory. -/
def directoryName (name : String) : String :=
  if isDirectoryName name then name else name ++ "/"

/-- The entries after the items were added, and whether all could be added. A directory that cannot
be listed has its entry by then, and a file that cannot be read has an empty one. The entry of a
file that is too large is given up. -/
def addItems (d : Disk) (archive base : String) (entries : List (Zip.Entry Content)) :
    List Item → List (Zip.Entry Content) × Except Failure Unit
  | [] => (entries, .ok ())
  | item :: rest =>
    match entryName? base item.path with
    | none => (entries, .error (.malformed archive .treeOutsideBase))
    | some name =>
      if item.isDir then
        let e := Zip.newDirectory (directoryName name) (.bytes [])
        match Zip.add? e entries, d.list item.path with
        | none, _ => (entries, .error (.zip (.duplicateName e.name)))
        | some more, .error cause => (more, .error (.io (.walk item.path cause)))
        | some more, .ok _ => addItems d archive base more rest
      else
        match Zip.add? (Zip.newFile name (.bytes [])) entries, d.read item.path with
        | none, _ => (entries, .error (.zip (.duplicateName name)))
        | some more, .error e => (more, .error (.io e))
        | some _, .ok c =>
          if c.fitsEntry then addItems d archive base (entries ++ [Zip.newFile name c]) rest
          else (entries, .error (.io .entryTooLarge))

/-- Adds a tree to the archive itself, which keeps its place and its mode. -/
def addTree (archive base dirName : String) : Act Unit := do
  let content ← Act.look (·.read archive)
  let entries ← Act.ofExcept (content.zipEntries.mapError .zip)
  let d ← Act.disk
  let root := Path.join base dirName
  let (more, outcome) :=
    match itemsFrom d root with
    | .error e => (entries, .error (.io (.walk root e)))
    | .ok items => addItems d archive base entries items
  Act.change (·.write archive (.zip more))
  Act.ofExcept outcome

end Rebadge.Archiver.Native
