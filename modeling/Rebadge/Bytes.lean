/-!
# Bytes and UTF-8

File contents are lists of bytes. A text becomes bytes by its UTF-8 encoding, and bytes that are
such an encoding are read back as the text.
-/

namespace Rebadge

/-- A sequence of bytes. -/
abbrev Bytes := List UInt8

/-- The UTF-8 encoding of a text. -/
def utf8 (s : String) : Bytes :=
  s.toList.flatMap String.utf8EncodeChar

/-- The text that the bytes encode, if they are valid UTF-8. -/
def ofUtf8? (b : Bytes) : Option String :=
  String.fromUTF8? b.toByteArray

/-- The size of the encoding that a first byte announces, its bits of the code point, and the least
and greatest second byte. -/
def leadByte? (b : UInt8) : Option (Nat × Nat × Nat × Nat) :=
  let n := b.toNat
  if n < 0x80 then some (1, n, 0x80, 0xbf)
  else if n < 0xc2 then none
  else if n < 0xe0 then some (2, n - 0xc0, 0x80, 0xbf)
  else if n = 0xe0 then some (3, 0, 0xa0, 0xbf)
  else if n = 0xed then some (3, 0xd, 0x80, 0x9f)
  else if n < 0xf0 then some (3, n - 0xe0, 0x80, 0xbf)
  else if n = 0xf0 then some (4, 0, 0x90, 0xbf)
  else if n < 0xf4 then some (4, n - 0xf0, 0x80, 0xbf)
  else if n = 0xf4 then some (4, 4, 0x80, 0x8f)
  else none

/-- The code point of an encoding of which `want` bytes are missing, if they come next, and the
number of bytes that belong to it or to its valid beginning. -/
def continueChar (code taken low high : Nat) : Nat → Bytes → Option Nat × Nat
  | 0, _ => (some code, taken)
  | _, [] => (none, taken)
  | want + 1, b :: rest =>
    let n := b.toNat
    if low ≤ n ∧ n ≤ high then continueChar (code * 64 + (n - 0x80)) (taken + 1) 0x80 0xbf want rest
    else (none, taken)

/-- The characters of a text with a replacement character for each part that is not UTF-8, where
`skip` bytes at the front belong to a character that was already read. -/
def lossyFrom : Nat → Bytes → List Char
  | _, [] => []
  | skip + 1, _ :: rest => lossyFrom skip rest
  | 0, b :: rest =>
    match leadByte? b with
    | none => '\ufffd' :: lossyFrom 0 rest
    | some (size, code, low, high) =>
      match continueChar code 1 low high (size - 1) rest with
      | (some c, taken) => .ofNat c :: lossyFrom (taken - 1) rest
      | (none, taken) => '\ufffd' :: lossyFrom (taken - 1) rest

/-- The text that bytes stand for, with replacement characters for what is not UTF-8. A byte-order
mark at the start is a character like any other. -/
def lossyText (b : Bytes) : String := .ofList (lossyFrom 0 b)

theorem toByteArray_utf8 (s : String) : (utf8 s).toByteArray = s.toByteArray := by
  rw [← String.utf8Encode_toList]
  rfl

/-- Reading back an encoded text gives the text. -/
@[simp] theorem ofUtf8?_utf8 (s : String) : ofUtf8? (utf8 s) = some s := by
  simp only [ofUtf8?, toByteArray_utf8, String.fromUTF8?, dif_pos s.isValidUTF8]
  rfl

theorem utf8_injective {s t : String} (h : utf8 s = utf8 t) : s = t :=
  Option.some.inj (by rw [← ofUtf8?_utf8 s, ← ofUtf8?_utf8 t, h])

end Rebadge
