import Rebadge.Config.Toml
import Rebadge.Url.Basic

/-!
# Failures

Every way in which an operation can end without a result, by cause. The wording of each is a
function on the cause.
-/

namespace Rebadge

/-- The errors of the file system and of starting programs. -/
inductive Errno where
  | notFound
  | permissionDenied
  | busy
  | alreadyExists
  | notADirectory
  | isADirectory
  | invalidArgument
  | nameTooLong
  | notEmpty
  | tooManyLinks
deriving DecidableEq, Repr

/-- The number of the error. -/
def Errno.code : Errno → Nat
  | .notFound => 2
  | .permissionDenied => 13
  | .busy => 16
  | .alreadyExists => 17
  | .notADirectory => 20
  | .isADirectory => 21
  | .invalidArgument => 22
  | .nameTooLong => 36
  | .notEmpty => 39
  | .tooManyLinks => 40

def Errno.meaning : Errno → String
  | .notFound => "No such file or directory"
  | .permissionDenied => "Permission denied"
  | .busy => "Device or resource busy"
  | .alreadyExists => "File exists"
  | .notADirectory => "Not a directory"
  | .isADirectory => "Is a directory"
  | .invalidArgument => "Invalid argument"
  | .nameTooLong => "File name too long"
  | .notEmpty => "Directory not empty"
  | .tooManyLinks => "Too many levels of symbolic links"

/-- The wording of the error. -/
def Errno.message (e : Errno) : String :=
  e.meaning ++ " (os error " ++ toString e.code ++ ")"

/-- Errors of reading and writing. -/
inductive IoError where
  | os (e : Errno)
  /-- A path with a NUL character. -/
  | nulInPath
  /-- A program, an argument or a directory of an invocation with a NUL character. -/
  | nulInInvocation
  /-- The empty path has no absolute form. -/
  | emptyPath
  /-- A text was read that is not valid UTF-8. -/
  | invalidUtf8
  /-- An archive entry does not have the content that it promises. -/
  | invalidChecksum
  /-- The file is no tarball. -/
  | unreadableTarball
  /-- A tarball cannot hold a path with the component `..`, here after the given part. -/
  | parentInTarball (before : String)
  /-- A tarball cannot hold an absolute path. -/
  | absoluteInTarball
  /-- A member of a tarball leads outside the directory that it is unpacked in. -/
  | outside (dir : String)
  /-- A member of a tarball could not be unpacked to a path. -/
  | unpack (path : String)
  /-- A directory for members of a tarball could not be made. -/
  | unpackDir (path : String)
  /-- A path could not be brought into canonical form. -/
  | canonical (path : String) (cause : IoError)
  /-- A directory walk met an error at a path. -/
  | walk (path : String) (cause : IoError)
  /-- A temporary file could not be made at a path. -/
  | temporary (path : String) (cause : IoError)
  /-- New data of an archive entry is longer than archives can tell without an extension. -/
  | entryTooLarge
deriving DecidableEq, Repr

/-- The text of a path between quotes. -/
def quoted (path : String) : String :=
  let escaped (c : Char) : List Char :=
    if c = '"' ∨ c = '\\' then ['\\', c]
    else if c = '\n' then ['\\', 'n']
    else if c = '\r' then ['\\', 'r']
    else if c = '\t' then ['\\', 't']
    else [c]
  .ofList ('"' :: path.toList.flatMap escaped ++ ['"'])

/-- The wording of the error. -/
def IoError.message : IoError → String
  | .os e => e.message
  | .nulInPath => "file name contained an unexpected NUL byte"
  | .nulInInvocation => "nul byte found in provided data"
  | .emptyPath => "cannot make an empty path absolute"
  | .invalidUtf8 => "stream did not contain valid UTF-8"
  | .invalidChecksum => "Invalid checksum"
  | .unreadableTarball => "failed to iterate over archive"
  | .parentInTarball before =>
    "paths in archives must not have \x60..\x60 when setting path for " ++ before
  | .absoluteInTarball => "paths in archives must be relative when setting path for "
  | .outside dir => "trying to unpack outside of destination path: " ++ dir
  | .unpack path => "failed to unpack \x60" ++ path ++ "\x60"
  | .unpackDir path => "failed to create \x60" ++ path ++ "\x60"
  | .canonical path cause => cause.message ++ " while canonicalizing " ++ path
  | .walk path cause => "IO error for operation on " ++ path ++ ": " ++ cause.message
  | .temporary path cause => cause.message ++ " at path " ++ quoted path
  | .entryTooLarge => "Large file option has not been set"

/-- Errors of reading and writing ZIP archives. -/
inductive ZipError where
  /-- The file has no directory of entries at its end. -/
  | noDirectory
  /-- The file cannot be read as an archive. -/
  | unreadable
  | entryNotFound
  | duplicateName (name : String)
deriving DecidableEq, Repr

/-- The wording of the error. -/
def ZipError.message : ZipError → String
  | .noDirectory => "invalid Zip archive: Could not find EOCD"
  | .unreadable => "i/o error"
  | .entryNotFound => "specified file not found in archive"
  | .duplicateName name => "invalid Zip archive: Duplicate filename: " ++ name

/-- What is wrong with an artifact. -/
inductive Malformation where
  | noEntry (name : String)
  | unsafePath (name : String)
  | treeOutsideBase
  | noDistInfo
  | severalDistInfo (names : List String)
  | missing (name : String)
  | wrongCount (file : String) (count : Nat)
  | distInfoCount (distName : String) (count : Nat)
  | notATarball
  | missingRoot (name : String)
  | notAFileName
deriving DecidableEq, Repr

/-- The wording of the fault. -/
def Malformation.message : Malformation → String
  | .noEntry name => "no entry named " ++ name
  | .unsafePath name => "unsafe path " ++ name
  | .treeOutsideBase => "tree outside of base"
  | .noDistInfo => "no .dist-info directory found"
  | .severalDistInfo names => "multiple .dist-info directories: " ++ ", ".intercalate names
  | .missing name => "missing " ++ name
  | .wrongCount file n => "expected exactly one " ++ file ++ ", found " ++ toString n
  | .distInfoCount dist n =>
    "expected one " ++ dist ++ "-*.dist-info directory, found " ++ toString n
  | .notATarball => "not a .tar.gz file"
  | .missingRoot name => "missing top-level directory " ++ name
  | .notAFileName => "listed filename is not a plain file name"

/-- What is wrong with the configuration or the files that it names. -/
inductive ConfigError where
  | unreadable (path : String) (e : IoError)
  | content (e : Config.ParseError)
  | trackedFile (path : String) (e : IoError)
deriving DecidableEq, Repr

/-- The wording of the error. -/
def ConfigError.message : ConfigError → String
  | .unreadable path e => path ++ ": " ++ e.message
  | .content e => e.message
  | .trackedFile path e => "tracked file " ++ path ++ ": " ++ e.message

/-- Errors of requests. -/
inductive HttpError where
  /-- The text is no URL. -/
  | noUrl (fault : Url.Fault)
  /-- The URL's scheme has no requests. -/
  | unsupportedScheme (url : String)
  /-- No response came; the causes go from the outermost to the innermost. -/
  | notSent (url : String) (causes : List String)
  /-- More redirects than are followed. -/
  | tooManyRedirects (url : String)
  /-- The response reports an error. -/
  | status (code : Nat) (reason : String) (url : String)
deriving DecidableEq, Repr

/-- The wording of the error. -/
def HttpError.message : HttpError → String
  | .noUrl _ => "builder error"
  | .unsupportedScheme url => "builder error for url (" ++ url ++ ")"
  | .notSent url _ => "error sending request for url (" ++ url ++ ")"
  | .tooManyRedirects url => "error following redirect for url (" ++ url ++ ")"
  | .status code reason url =>
    "HTTP status " ++ (if code < 500 then "client" else "server") ++ " error (" ++ toString code ++
      (if reason = "" then "" else " " ++ reason) ++ ") for url (" ++ url ++ ")"

/-- What an error is due to, from the outermost cause to the innermost. -/
def HttpError.causes : HttpError → List String
  | .noUrl fault => [fault.message]
  | .unsupportedScheme _ => ["URL scheme is not allowed"]
  | .notSent _ causes => causes
  | .tooManyRedirects _ => ["too many redirects"]
  | _ => []

/-- How an operation failed. -/
inductive Failure where
  | io (e : IoError)
  | zip (e : ZipError)
  | http (e : HttpError)
  /-- The package index did not answer with a list of files. -/
  | index (message : String)
  /-- A program ended with another code than zero. -/
  | command (line : String) (code : Int)
  | malformed (archive : String) (what : Malformation)
  /-- An entry does not have the digest, the size or the place that the record gives it. -/
  | integrity (path expected actual : String)
  | record (e : DigestError)
  | config (e : ConfigError)
  | url (f : Url.Fault)
deriving DecidableEq, Repr

namespace Failure

/-- The wording of the failure. -/
def message : Failure → String
  | io e => "IO error: " ++ e.message
  | zip e => "ZIP error: " ++ e.message
  | http e => "HTTP error: " ++ e.message
  | index m => "Invalid listing: " ++ m
  | command line code => "Command failed with code " ++ toString code ++ ": " ++ line
  | malformed archive what => "Malformed archive " ++ archive ++ ": " ++ what.message
  | integrity path expected actual =>
    "Integrity check failed for " ++ path ++ ": expected " ++ expected ++ ", got " ++ actual
  | record e => "Record error: " ++ e.message
  | config e => "Config error: " ++ e.message
  | url f => "Invalid URL: " ++ f.message

/-- What the failure is due to, from the outermost cause to the innermost. -/
def causes : Failure → List String
  | io e => [e.message]
  | zip e => [e.message]
  | http e => e.message :: e.causes
  | index m => [m]
  | record e => [e.message]
  | url f => [f.message]
  | _ => []

def os (e : Errno) : Failure := io (.os e)

end Failure
end Rebadge
