import Rebadge.Digest.Base64
import Rebadge.Digest.Sha256
import Rebadge.Text.Basic

/-!
# Digests of contents

A digest is the text `sha256=` followed by the Base64 form of the SHA-256 hash. It is written in one
of two encodings and checked in either alphabet, with or without padding.
-/

namespace Rebadge

/-- How digests are written. -/
inductive DigestEncoding where
  /-- The standard alphabet, with padding. -/
  | standard
  /-- The URL-safe alphabet, without padding. -/
  | urlSafeNoPad
deriving DecidableEq, Repr

/-- Why a digest cannot be checked. -/
inductive DigestError where
  /-- The digest does not start with `sha256=`. -/
  | unknownAlgorithm (digest : String)
  /-- The rest is Base64 in neither alphabet. -/
  | undecodable (digest : String) (why : Base64.DecodeError)
deriving DecidableEq, Repr

/-- The wording of the error. -/
def DigestError.message : DigestError → String
  | .unknownAlgorithm d => "Invalid digest: " ++ d
  | .undecodable d why => "Invalid digest: " ++ d ++ ": " ++ why.message

namespace Digest

/-- What every digest starts with. -/
def tag : String := "sha256="

/-- The digest of a content. -/
def ofContent (content : Bytes) (encoding : DigestEncoding) : String :=
  let h := Sha256.hash content
  tag ++ .ofList (match encoding with
    | .standard => Base64.encode .standard h ++ Base64.padding h
    | .urlSafeNoPad => Base64.encode .urlSafe h)

/-- The hash that the text of a digest encodes. The error is that of the URL-safe reading. -/
def decode (digest : String) : Except DigestError Bytes :=
  match Text.stripPrefix? tag digest with
  | none => .error (.unknownAlgorithm digest)
  | some encoded =>
    let text := utf8 (Text.trimEnd encoded '=')
    match Base64.decode .standard text with
    | .ok hash => .ok hash
    | .error _ => (Base64.decode .urlSafe text).mapError (.undecodable digest)

/-- Whether the digest is one of the content. -/
def verify (digest : String) (content : Bytes) : Except DigestError Bool :=
  (decode digest).map (· == Sha256.hash content)

end Digest
end Rebadge
