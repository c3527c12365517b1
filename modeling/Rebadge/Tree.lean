import Rebadge.Content
import Rebadge.Path
import Rebadge.Sorted

/-!
# File trees

A tree is a finite map from locations to directories, files and symbolic links. A location lists the
names from the root down to a node; the root is always a directory. Paths are resolved against a
tree by `walk`, which follows links.
-/

namespace Rebadge

/-- The names from the root of the tree down to a node. -/
abbrev Location := List String

/-- What a location holds. -/
inductive Node where
  | dir (mode : Nat)
  | file (content : Content) (mode : Nat)
  | link (target : String)

/-- Whether a node is a directory. -/
def Node.isDir : Node → Bool
  | dir _ => true
  | _ => false

/-- The nodes below the root. -/
structure Tree where
  nodes : List (Location × Node) := []

namespace Tree

/-- The first node of a list at a location. -/
def nodeAt (l : Location) : List (Location × Node) → Option Node
  | [] => none
  | (k, n) :: rest => if k = l then some n else nodeAt l rest

/-- The node at a location. -/
def get? (t : Tree) (l : Location) : Option Node :=
  if l = [] then some (.dir 0o755) else nodeAt l t.nodes

/-- The list of nodes with another node at a location, in the place of the old one or at the end. -/
def putNode (l : Location) (n : Node) : List (Location × Node) → List (Location × Node)
  | [] => [(l, n)]
  | (k, m) :: rest => if k = l then (l, n) :: rest else (k, m) :: putNode l n rest

/-- The tree with a node at a location. -/
def put (t : Tree) (l : Location) (n : Node) : Tree :=
  ⟨putNode l n t.nodes⟩

/-- The tree without a location and all locations below it. -/
def drop (t : Tree) (l : Location) : Tree :=
  ⟨t.nodes.filter fun (k, _) => !l.isPrefixOf k⟩

/-- The tree in which everything at and below one location is at another one, in place of what was
there. -/
def move (t : Tree) (source target : Location) : Tree :=
  let moved := t.nodes.filterMap fun (k, n) => (source.isPrefixOf? k).map fun rest =>
    (target ++ rest, n)
  ⟨((t.drop source).drop target).nodes ++ moved⟩

/-- The names in a directory, in order. -/
def names (t : Tree) (l : Location) : List String :=
  let found := t.nodes.filterMap fun (k, _) =>
    match l.isPrefixOf? k with
    | some [name] => some name
    | _ => none
  Sorted.sort Text.le found

/-- The order in which a directory comes before what it holds, and names are in order. -/
def locationLe : Location → Location → Bool
  | [], _ => true
  | _ :: _, [] => false
  | a :: l, b :: k => if a = b then locationLe l k else Text.le a b

/-- What is at a location and below it, by the names that lead there, in order. -/
def below (t : Tree) (l : Location) : List (Location × Node) :=
  let found := t.nodes.filterMap fun (k, n) => (l.isPrefixOf? k).map fun rest => (rest, n)
  Sorted.sort (fun a b => locationLe a.1 b.1) found

/-- The location is a directory with nothing in it. -/
def isEmptyDir (t : Tree) (l : Location) : Bool :=
  (t.names l).isEmpty

/-! ## The root -/

theorem ne_nil_of_not_dir {t : Tree} {l : Location} (h : ∀ m, t.get? l ≠ some (.dir m)) :
    l ≠ [] := by
  rintro rfl
  exact h 0o755 rfl

theorem ne_nil_of_none {t : Tree} {l : Location} (h : t.get? l = none) : l ≠ [] :=
  ne_nil_of_not_dir (t := t) (by simp [h])

theorem ne_nil_of_file {t : Tree} {l : Location} {c : Content} {m : Nat}
    (h : t.get? l = some (.file c m)) : l ≠ [] :=
  ne_nil_of_not_dir (t := t) (by simp [h])

/-! ## Look-up after an edit -/

theorem nodeAt_putNode (l : Location) (n : Node) (k : Location) (nodes : List (Location × Node)) :
    nodeAt k (putNode l n nodes) = if k = l then some n else nodeAt k nodes := by
  induction nodes with
  | nil => simp [putNode, nodeAt, eq_comm]
  | cons p rest ih => grind [putNode, nodeAt]

/-- Putting a node changes its own location only. -/
theorem get?_put {t : Tree} {l : Location} (hl : l ≠ []) (n : Node) (k : Location) :
    (t.put l n).get? k = if k = l then some n else t.get? k := by
  by_cases hk : k = []
  · subst hk
    simp [get?, Ne.symm hl]
  · simp [get?, hk, put, nodeAt_putNode]

theorem nodeAt_filter (p : Location → Bool) (k : Location) (nodes : List (Location × Node)) :
    nodeAt k (nodes.filter fun q => p q.1) = if p k then nodeAt k nodes else none := by
  induction nodes with
  | nil => simp [nodeAt]
  | cons q rest ih => grind [nodeAt]

/-- Dropping a location changes nothing outside it. -/
theorem get?_drop {t : Tree} {l : Location} (hl : l ≠ []) (k : Location) :
    (t.drop l).get? k = if l.isPrefixOf k then none else t.get? k := by
  by_cases hk : k = []
  · subst hk
    cases l with
    | nil => exact absurd rfl hl
    | cons a l => simp [get?]
  · have := nodeAt_filter (fun j => !l.isPrefixOf j) k t.nodes
    simp only [get?, drop, if_neg hk, this]
    cases l.isPrefixOf k <;> rfl

/-! ## Resolving paths -/

/-- The longest name of a node, in bytes. -/
def maxNameSize : Nat := 255

/-- How many links a path may lead through. -/
def maxLinks : Nat := 40

/-- Where a walk ends or is interrupted. -/
inductive Trail where
  /-- The walk is at its end. There need not be a node. -/
  | arrived (l : Location)
  /-- The walk met a link to follow, in a directory and with names still to come. -/
  | atLink (dir : Location) (target : String) (rest : List String)
deriving DecidableEq, Repr

/-- The walk from a directory along names up to the first link that is to be followed. Empty names
and `.` stay, `..` goes up, and a link at the end is followed only if `follow` is set. The last name
may be one that the directory does not hold. -/
def trail (t : Tree) (follow : Bool) (here : Location) : List String → Except Errno Trail
  | [] => .ok (.arrived here)
  | name :: rest =>
    match t.get? here with
    | none => .error .notFound
    | some (.file ..) | some (.link _) => .error .notADirectory
    | some (.dir _) =>
      if name = "" ∨ name = "." then trail t follow here rest
      else if name = ".." then trail t follow here.dropLast rest
      else if maxNameSize < name.utf8ByteSize then .error .nameTooLong
      else
        match t.get? (here ++ [name]) with
        | some (.link target) =>
          if rest = [] ∧ !follow then .ok (.arrived (here ++ [name]))
          else if target = "" then .error .notFound
          else .ok (.atLink here target rest)
        | some _ => trail t follow (here ++ [name]) rest
        | none => if rest.all (· == "") then .ok (.arrived (here ++ [name])) else .error .notFound

/-- Where the names lead from a directory. The number says how many links may be followed. -/
def walk (t : Tree) (follow : Bool) : Nat → Location → List String → Except Errno Location
  | budget, here, names =>
    match trail t follow here names with
    | .error e => .error e
    | .ok (.arrived l) => .ok l
    | .ok (.atLink dir target rest) =>
      match budget with
      | 0 => .error .tooManyLinks
      | budget + 1 =>
        walk t follow budget (if Path.isAbsolute target then [] else dir)
          (Text.split target '/' ++ rest)

end Tree
end Rebadge
