import Mustache.Text.Invisible

/-!
# Quoted text

One written form of a text between quotation marks, in which no character can be mistaken for
another: the quotation mark, the backslash, line ends and everything that does not show are
written as escapes. The lowered form of a program is made of such texts, so what the escapes
keep apart decides which programs have the same hash.
-/

namespace Mustache.Text

/-- The escapes that have a letter of their own. -/
def letterEscape? : Char → Option Char
  | '\x00' => some '0'
  | '\t' => some 't'
  | '\r' => some 'r'
  | '\n' => some 'n'
  | '\\' => some '\\'
  | _ => none

/-- The lower-case hexadecimal digits of a number, without leading zeros. -/
def hexDigits (number : Nat) : List Char :=
  Nat.toDigits 16 number

/-- Whether a character is written as it is between quotation marks. -/
def showsItself (character : Char) : Bool :=
  (' ' ≤ character && character ≤ '~') || !isInvisible character

/-- A character as it is written between two marks `mark`: the mark itself and the backslash
take a backslash, a character that does not show is written by its code point. -/
def quoteChar (mark character : Char) : List Char :=
  match letterEscape? character with
  | some letter => ['\\', letter]
  | none =>
    if character == mark then ['\\', mark]
    else if showsItself character then [character]
    else ['\\', 'u', '\x7b'] ++ hexDigits character.toNat ++ ['\x7d']

/-- The characters of a text as they are written between two marks `mark`. -/
def quoteChars (mark : Char) (text : List Char) : List Char :=
  text.flatMap (quoteChar mark)

/-- A text in quotation marks. -/
def quoted (text : String) : String :=
  String.ofList ('"' :: quoteChars '"' text.toList ++ ['"'])

/-- A single character in apostrophes. -/
def quotedChar (character : Char) : String :=
  String.ofList ('\'' :: quoteChar '\'' character ++ ['\''])

end Mustache.Text
