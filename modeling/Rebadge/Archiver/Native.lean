import Rebadge.Archiver
import Rebadge.Archiver.Tar
import Rebadge.Archiver.Zip

/-!
# The archiver that works in process
-/

namespace Rebadge.Archiver

/-- Edits archives in process. -/
def native : Archiver where
  replaceEntry := Native.replaceEntry
  extractEntries := Native.extractEntries
  deleteEntries := Native.deleteEntries
  addTree := Native.addTree
  extractTarball := Native.extractTarball
  createTarball := Native.createTarball

end Rebadge.Archiver
