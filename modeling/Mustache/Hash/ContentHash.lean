import Mustache.Hash.Sha256
import Mustache.Text.Hex
import Mustache.Text.Quoted

/-!
# Content hashes

A program is known by the SHA-256 digest of its lowered form. The digest is written as sixty-four
lower-case hexadecimal digits and read back from digits of either case.
-/

namespace Mustache

/-- Thirty-two bytes that stand for a content. -/
structure ContentHash where
  /-- The bytes of the digest. -/
  bytes : List UInt8
  /-- A digest has thirty-two bytes. -/
  length_bytes : bytes.length = 32
  deriving DecidableEq

instance : Inhabited ContentHash := ⟨List.replicate 32 0, rfl⟩

/-- Why a text is no content hash. -/
inductive HashTextError where
  /-- The text has an odd number of bytes. -/
  | oddLength
  /-- The text has not sixty-four bytes. -/
  | wrongLength
  /-- The byte at a position is no hexadecimal digit. -/
  | invalidDigit (code : UInt8) (position : Nat)
  deriving Repr, DecidableEq, Inhabited

/-- What is said about a text that is no content hash. The byte at fault is shown as the
character that has its number. -/
def HashTextError.message : HashTextError → String
  | .oddLength => "Odd number of digits"
  | .wrongLength => "Invalid string length"
  | .invalidDigit code position =>
    s!"Invalid character {Text.quotedChar (Char.ofNat code.toNat)} at position {position}"

namespace ContentHash

/-- The hash of a text's UTF-8 bytes. -/
def ofText (text : String) : ContentHash :=
  ⟨(Sha256.finalState text.toByteArray).bytes, Sha256.State.length_bytes _⟩

/-- The written form of a hash. -/
def text (hash : ContentHash) : String :=
  String.ofList (Text.Hex.encode hash.bytes)

/-- The hash that a text of hexadecimal digits stands for. The number of bytes is looked at
before the digits. -/
def ofHex (digits : String) : Except HashTextError ContentHash :=
  let codes := digits.toByteArray.data.toList
  if codes.length % 2 = 1 then .error .oddLength
  else if long : codes.length = 64 then
    match decoded : Text.Hex.decodeFrom 0 codes with
    | .error (code, position) => .error (.invalidDigit code position)
    | .ok bytes => .ok ⟨bytes, by rw [Text.Hex.length_decodeFrom decoded, long]⟩
  else .error .wrongLength

end ContentHash

end Mustache
