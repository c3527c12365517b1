/-!
# Tarballs

A tarball is the list of its members, each with a path, a mode and a body. What a file holds is a
parameter.
-/

namespace Rebadge.Tar

/-- What a member is. -/
inductive Body (α : Type) where
  | file (data : α)
  | dir
  | link (target : String)
deriving DecidableEq, Repr

/-- A member of a tarball. -/
structure Member (α : Type) where
  path : String
  body : Body α
  mode : Nat
deriving DecidableEq, Repr

/-- Whether a member is a directory. -/
def Member.isDir {α : Type} (m : Member α) : Bool :=
  match m.body with
  | .dir => true
  | _ => false

end Rebadge.Tar
