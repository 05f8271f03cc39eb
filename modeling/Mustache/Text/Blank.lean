/-!
# Blank characters

What counts as white space around a tag's name or inside a marker, and what counts as blank
on a line that holds nothing else. The two are different: the first is the Unicode property
White_Space, the second is the space and the tab alone.
-/

namespace Mustache.Text

/-- Whether a character has the Unicode property White_Space. -/
def isWhiteSpace (character : Char) : Bool :=
  let code := character.toNat
  (0x09 ≤ code && code ≤ 0x0d) || code == 0x20 || code == 0x85 || code == 0xa0 ||
    code == 0x1680 || (0x2000 ≤ code && code ≤ 0x200a) || code == 0x2028 || code == 0x2029 ||
    code == 0x202f || code == 0x205f || code == 0x3000

/-- A text without its leading white space. -/
def trimStart (text : List Char) : List Char :=
  text.dropWhile isWhiteSpace

/-- A text without its leading and its trailing white space. -/
def trim (text : List Char) : List Char :=
  ((trimStart text).reverse.dropWhile isWhiteSpace).reverse

/-- Whether a character is the space or the tab, the only ones that leave a line blank. -/
def isLineBlank (character : Char) : Bool :=
  character == ' ' || character == '\t'

end Mustache.Text
