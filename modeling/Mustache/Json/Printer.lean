import Mustache.Json.Document

/-!
# Written documents

A document as a JSON text, without blanks or with one value on a line. Members are written in
the order in which the document holds them.
-/

namespace Mustache.Document

open Json

/-- The letter that stands for a character after a backslash. -/
def escapeLetter? : Char → Option Char
  | '"' => some '"'
  | '\\' => some '\\'
  | '\x08' => some 'b'
  | '\x0c' => some 'f'
  | '\n' => some 'n'
  | '\r' => some 'r'
  | '\t' => some 't'
  | _ => none

/-- A character within a string. -/
def writeCharacter (character : Char) : List Char :=
  match escapeLetter? character with
  | some letter => ['\\', letter]
  | none =>
    if character.toNat < 0x20 then
      ['\\', 'u', '0', '0'] ++ Text.Hex.encodeByte (UInt8.ofNat character.toNat)
    else [character]

/-- A text as a string. -/
def writeString (text : String) : List Char :=
  '"' :: text.toList.flatMap writeCharacter ++ ['"']

/-- How a document is laid out. -/
inductive Style where
  /-- Without blanks. -/
  | compact
  /-- One value on a line, two spaces in for each value around it. -/
  | pretty
  deriving Repr, DecidableEq, Inhabited

/-- What comes before a value within another one. -/
def Style.lineBreak (style : Style) (depth : Nat) : List Char :=
  match style with
  | .compact => []
  | .pretty => '\n' :: List.replicate (2 * depth) ' '

/-- What stands between a name and its value. -/
def Style.colon : Style → List Char
  | .compact => [':']
  | .pretty => [':', ' ']

mutual

/-- A document inside `depth` others. -/
def writeAt (style : Style) (depth : Nat) : Document → List Char
  | .null => ['n', 'u', 'l', 'l']
  | .bool true => ['t', 'r', 'u', 'e']
  | .bool false => ['f', 'a', 'l', 's', 'e']
  | .number value => value.write.toList
  | .string text => writeString text
  | .array [] => ['[', ']']
  | .array (item :: rest) =>
    '[' :: style.lineBreak (depth + 1) ++ writeAt style (depth + 1) item ++
      writeItems style (depth + 1) rest ++ style.lineBreak depth ++ [']']
  | .object [] => ['\x7b', '\x7d']
  | .object ((name, value) :: rest) =>
    '\x7b' :: style.lineBreak (depth + 1) ++ writeString name ++ style.colon ++
      writeAt style (depth + 1) value ++ writeMembers style (depth + 1) rest ++
      style.lineBreak depth ++ ['\x7d']

/-- The values of a list after the first one. -/
def writeItems (style : Style) (depth : Nat) : List Document → List Char
  | [] => []
  | item :: rest =>
    ',' :: style.lineBreak depth ++ writeAt style depth item ++ writeItems style depth rest

/-- The named values of an object after the first one. -/
def writeMembers (style : Style) (depth : Nat) : List (String × Document) → List Char
  | [] => []
  | (name, value) :: rest =>
    ',' :: style.lineBreak depth ++ writeString name ++ style.colon ++
      writeAt style depth value ++ writeMembers style depth rest

end

/-- A document as a JSON text. -/
def write (style : Style) (document : Document) : String :=
  String.ofList (writeAt style 0 document)

/-- A document as a JSON text without blanks. -/
def text (document : Document) : String :=
  document.write .compact

end Mustache.Document
