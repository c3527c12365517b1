import Rebadge.Config

/-!
# Core metadata

The text of METADATA and PKG-INFO. Only the first declaration of the name, the renamed dependency
and local versions change.
-/

namespace Rebadge.Metadata

/-- The declaration of a name. -/
def nameLine (name : String) : String := "Name: " ++ name

/-- The metadata of the fork. -/
def forFork (text : String) (c : Config) : String :=
  let named := Text.replaceFirst text (nameLine c.package) (nameLine c.forkPackage)
  Version.stripLocalVersion
    (Text.replaceAll named c.dependency.metadataFrom c.dependency.metadataTo)

end Rebadge.Metadata
