/-!
# ZIP archives

An archive is the list of its entries. What an entry holds is a parameter, and so is nothing said
about how entries are laid out in a file. All edits go through `edit`, which decides entry by entry.
-/

namespace Rebadge.Zip

/-- How the data of an entry is packed. -/
inductive Method where
  | stored
  | deflated
deriving DecidableEq, Repr

/-- An entry of an archive. -/
structure Entry (α : Type) where
  name : String
  data : α
  method : Method := .stored
  /-- The mode with the bits of the file type, if the archive gives one. -/
  mode : Option Nat := none
  /-- Whether the data agrees with its checksum. -/
  intact : Bool := true
deriving DecidableEq, Repr

variable {α : Type}

/-- A name that ends with `/` stands for a directory. -/
def Entry.isFile (e : Entry α) : Bool := e.name.toList.getLast? != some '/'

/-- The mode of a regular file with the permissions of a mode, or with read permission for all. -/
def regularMode (mode : Option Nat) : Nat :=
  0o100000 + (mode.getD 0o644) % 0o1000

/-- The mode of a directory. -/
def directoryMode : Nat := 0o40755

/-! ## Reading -/

/-- The entries with `e` in the place of the one of its name, or at the end if there is none. -/
def put (e : Entry α) : List (Entry α) → List (Entry α)
  | [] => [e]
  | d :: rest => if d.name = e.name then e :: rest else d :: put e rest

/-- The entries as a reader sees them: of several entries with one name, the last one in the place
of the first. -/
def visible (entries : List (Entry α)) : List (Entry α) :=
  entries.foldl (fun seen e => put e seen) []

/-- The names of the entries. -/
def names (entries : List (Entry α)) : List String := entries.map (·.name)

/-- The entry of a name. -/
def find? (entries : List (Entry α)) (name : String) : Option (Entry α) :=
  entries.find? (·.name == name)

/-! ## Editing -/

/-- What happens to an entry. -/
inductive Action (α : Type) where
  | keep
  | drop
  | replace (data : α)

/-- The entry after the action. A kept entry keeps its data, even if it is not intact; its mode
becomes that of a regular file. -/
def Action.apply : Action α → Entry α → Option (Entry α)
  | keep, e => some { e with mode := some (regularMode e.mode) }
  | drop, _ => none
  | replace data, e =>
    some { name := e.name, data, method := .deflated, mode := some (regularMode e.mode) }

/-- The new data that the action gives an entry, if any. -/
def Action.data? : Action α → Option α
  | replace data => some data
  | _ => none

/-- The archive after an action on each entry, chosen by its name. -/
def edit (action : String → Action α) (entries : List (Entry α)) : List (Entry α) :=
  entries.filterMap fun e => (action e.name).apply e

/-- New data for the entry of one name. -/
def replacing (name : String) (data : α) (n : String) : Action α :=
  if n = name then .replace data else .keep

/-- No entries of the given names. -/
def deleting (doomed : List String) (n : String) : Action α :=
  if n ∈ doomed then .drop else .keep

/-- The archive with new data in the entry of a name. -/
def replace (name : String) (data : α) (entries : List (Entry α)) : List (Entry α) :=
  edit (replacing name data) entries

/-- The archive without the entries of the given names. -/
def delete (doomed : List String) (entries : List (Entry α)) : List (Entry α) :=
  edit (deleting doomed) entries

/-! ## Adding -/

/-- New data of an entry has at most this many bytes. Copied entries may hold more. -/
def maxNewSize : Nat := 0xffffffff

/-- A new entry for a file. -/
def newFile (name : String) (data : α) : Entry α :=
  { name, data, method := .deflated, mode := some (regularMode none) }

/-- A new entry for a directory. -/
def newDirectory (name : String) (nothing : α) : Entry α :=
  { name, data := nothing, mode := some directoryMode }

/-- The archive with one more entry, unless its name is taken. -/
def add? (e : Entry α) (entries : List (Entry α)) : Option (List (Entry α)) :=
  if e.name ∈ names entries then none else some (entries ++ [e])

end Rebadge.Zip
