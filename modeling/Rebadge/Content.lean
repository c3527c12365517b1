import Rebadge.Bytes
import Rebadge.Failure
import Rebadge.Tar
import Rebadge.Zip

/-!
# Contents of files

A file holds bytes or an archive. An archive is given by its entries alone, so that two archives are
equal when their entries are; the bytes of an archive stand for it wherever a digest or a size is
taken.
-/

namespace Rebadge

/-- What a file holds. -/
inductive Content where
  | bytes (data : Bytes)
  | zip (entries : List (Zip.Entry Content))
  | tar (members : List (Tar.Member Content))

namespace Content

/-- A byte that occurs in no UTF-8 text. -/
def mark : UInt8 := 0xff

mutual

/-- The bytes of a content. Those of an archive are no text. -/
def image : Content → Bytes
  | bytes data => data
  | zip entries => 0x50 :: 0x4b :: mark :: imageOfEntries entries
  | tar members => 0x1f :: 0x8b :: mark :: imageOfMembers members

def imageOfEntries : List (Zip.Entry Content) → Bytes
  | [] => []
  | ⟨name, data, _, _, _⟩ :: rest =>
    utf8 name ++ mark :: (data.image ++ mark :: imageOfEntries rest)

def imageOfMembers : List (Tar.Member Content) → Bytes
  | [] => []
  | ⟨path, .file data, _⟩ :: rest =>
    utf8 path ++ mark :: (data.image ++ mark :: imageOfMembers rest)
  | ⟨path, _, _⟩ :: rest => utf8 path ++ mark :: imageOfMembers rest

end

/-- The content of a text. -/
def ofText (s : String) : Content := bytes (utf8 s)

/-- The text that a content is, if it is valid UTF-8. -/
def text? (c : Content) : Except IoError String :=
  match ofUtf8? c.image with
  | some s => .ok s
  | none => .error .invalidUtf8

/-- What starts the directory of a ZIP archive. -/
def zipSignature : Bytes := [0x50, 0x4b, 0x05, 0x06]

/-- The signature occurs in the bytes. -/
def hasZipSignature : Bytes → Bool
  | [] => false
  | b :: rest => zipSignature.isPrefixOf (b :: rest) || hasZipSignature rest

/-- The shortest end of a ZIP archive. -/
def zipEndSize : Nat := 22

/-- The entries of a ZIP archive, as a reader sees them. Raw bytes are read by convention: with the
signature of a directory in them they are an archive without entries, whatever directory the bytes
spell out. -/
def zipEntries : Content → Except ZipError (List (Zip.Entry Content))
  | zip entries => .ok (Zip.visible entries)
  | tar _ => .error .noDirectory
  | bytes data =>
    if !hasZipSignature data then .error .noDirectory
    else if data.length < zipEndSize then .error .unreadable
    else .ok []

/-- The members of a tarball. -/
def tarMembers : Content → Except IoError (List (Tar.Member Content))
  | tar members => .ok members
  | _ => .error .unreadableTarball

end Content

/-- Whether the content can be new data of an archive entry. -/
def Content.fitsEntry (c : Content) : Bool := c.image.length ≤ Zip.maxNewSize

/-- The data of an entry, if it is intact. -/
def Zip.Entry.read (e : Zip.Entry Content) : Except IoError Content :=
  if e.intact then .ok e.data else .error .invalidChecksum

/-- The entry without its data. Its checksum still is that of the data. -/
def Zip.Entry.emptied (e : Zip.Entry Content) : Zip.Entry Content :=
  { e with data := .bytes [], intact := e.intact && e.data.image.isEmpty }

/-- The data of an entry as text. -/
def Zip.Entry.text (e : Zip.Entry Content) : Except IoError String :=
  e.read.bind (·.text?)

end Rebadge
