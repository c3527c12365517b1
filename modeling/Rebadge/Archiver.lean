import Rebadge.Workspace

/-!
# Archivers

What it takes to edit archives: six operations, each of which opens an archive, changes it and
closes it. No archiver recomputes digests.
-/

namespace Rebadge

/-- The operations on archives. -/
structure Archiver where
  /-- Puts a content in the place of that of an entry. -/
  replaceEntry (archive entry : String) (content : Content) : Act Unit
  /-- Extracts the named entries below a directory, each at its own path. -/
  extractEntries (archive : String) (entries : List String) (dest : String) : Act Unit
  /-- Removes the named entries. -/
  deleteEntries (archive : String) (entries : List String) : Act Unit
  /-- Adds a directory of a base directory with all that it holds, under its own name. -/
  addTree (archive base dirName : String) : Act Unit
  /-- Unpacks a tarball into a directory. -/
  extractTarball (tarball dest : String) : Act Unit
  /-- Packs a directory of a base directory into a tarball, under its own name. -/
  createTarball (tarball base dirName : String) : Act Unit

end Rebadge
