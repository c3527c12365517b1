/-!
# TOML values

A table remembers how it came to be, because that decides how it may be extended: it is implicit
when only tables inside it were named, and dotted when a dotted key made it.
-/

namespace Rebadge.Toml

/-- A table over values of type `α`, in the order in which its keys were first set. -/
structure TableOf (α : Type) where
  isImplicit : Bool := false
  isDotted : Bool := false
  entries : List (String × α) := []
deriving Repr

/-- A value. Floats and moments in time keep their text. -/
inductive Value where
  | string (s : String)
  | integer (i : Int)
  | float (text : String)
  | boolean (b : Bool)
  | moment (text : String)
  | array (items : List Value)
  /-- A table written as a value, which nothing extends. -/
  | inlineTable (t : TableOf Value)
  /-- A table made by headers or dotted keys. -/
  | table (t : TableOf Value)
  /-- An array of tables made by doubled headers. -/
  | tables (ts : List (TableOf Value))
deriving Repr

/-- A table of values. -/
abbrev Table := TableOf Value

namespace TableOf

variable {α : Type}

/-- The value of a key. -/
def get? (t : TableOf α) (key : String) : Option α :=
  t.entries.lookup key

/-- The table with the key set. A key that was there keeps its place. -/
def insert (t : TableOf α) (key : String) (v : α) : TableOf α :=
  { t with entries :=
      if t.entries.any (·.1 == key) then t.entries.map fun e => if e.1 == key then (key, v) else e
      else t.entries ++ [(key, v)] }

end TableOf

namespace Table

/-- Changes the table that a path leads to. Tables that are missing on the way are made. A dotted
path may not pass through a table that a header defined, and no path passes through other values; in
an array of tables it goes on in the last one. -/
def within (dotted : Bool) : List String → (Table → Option Table) → Table → Option Table
  | [], f, t => f t
  | key :: path, f, t =>
    match t.get? key with
    | none =>
      (within dotted path f { isImplicit := true, isDotted := dotted }).map
        (t.insert key <| .table ·)
    | some (.table sub) =>
      if dotted && !sub.isImplicit then none
      else (within dotted path f sub).map (t.insert key <| .table ·)
    | some (.tables subs) =>
      match subs.getLast? with
      | none => none
      | some sub =>
        (within dotted path f sub).map fun s => t.insert key (.tables (subs.dropLast ++ [s]))
    | some _ => none

/-- Sets a key that is not set yet. A dotted key may only add to tables that dotted keys made. -/
def assign (path : List String) (key : String) (v : Value) : Table → Option Table :=
  within true path fun t =>
    if t.isDotted == path.isEmpty then none
    else if (t.get? key).isSome then none
    else some (t.insert key v)

/-- Opens the table of a header. It must be new, or known only through tables inside it. -/
def define (path : List String) (key : String) : Table → Option Table :=
  within false path fun t =>
    match t.get? key with
    | none => some (t.insert key (.table {}))
    | some (.table sub) =>
      if sub.isImplicit && !sub.isDotted then
        some (t.insert key (.table { sub with isImplicit := false }))
      else none
    | some _ => none

/-- Adds a table to the array of a doubled header. -/
def append (path : List String) (key : String) : Table → Option Table :=
  within false path fun t =>
    match t.get? key with
    | none => some (t.insert key (.tables [{}]))
    | some (.tables subs) => some (t.insert key (.tables (subs ++ [{}])))
    | some _ => none

end Table
end Rebadge.Toml
