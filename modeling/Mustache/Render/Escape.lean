import Mustache.Text.Search

/-!
# Escaped text

Five characters have a meaning in markup and are written as entities instead. They are all of
one byte, so escaping can be done byte by byte, wherever a text is cut.
-/

namespace Mustache.Escape

/-- The entity that is written for a character, given by its code. -/
def entity? (code : Nat) : Option String :=
  if code = '&'.toNat then some "&amp;"
  else if code = '<'.toNat then some "&lt;"
  else if code = '>'.toNat then some "&gt;"
  else if code = '"'.toNat then some "&quot;"
  else if code = '\''.toNat then some "&#39;"
  else none

/-- A character as it is written. -/
def escapeChar (character : Char) : List Char :=
  match entity? character.toNat with
  | some entity => entity.toList
  | none => [character]

/-- A text as it is written. -/
def escape (text : String) : String :=
  String.ofList (text.toList.flatMap escapeChar)

/-- A byte as it is written. -/
def escapeByte (byte : UInt8) : List UInt8 :=
  match entity? byte.toNat with
  | some entity => entity.toByteArray.data.toList
  | none => [byte]

/-- Bytes as they are written. -/
def escapeBytes (bytes : ByteArray) : ByteArray :=
  ⟨(bytes.data.toList.flatMap escapeByte).toArray⟩

/-- The pieces in which bytes are written after some that need no entity: what stands before a
byte with an entity, then that entity, and at the end what stands after the last one. -/
def piecesAfter (plain : ByteArray) : List UInt8 → List ByteArray
  | [] => [plain]
  | byte :: rest =>
    match entity? byte.toNat with
    | some entity => plain :: entity.toByteArray :: piecesAfter .empty rest
    | none => piecesAfter (plain.push byte) rest

/-- The pieces in which bytes are written, one after another. -/
def pieces (bytes : ByteArray) : List ByteArray :=
  piecesAfter .empty bytes.data.toList

/-- Writes bytes after others. The answer is how many were taken, which is all of them. -/
def writeChunk (written chunk : ByteArray) : Nat × ByteArray :=
  (chunk.size, written ++ escapeBytes chunk)

end Mustache.Escape
