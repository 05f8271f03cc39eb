import Mustache.Json.Number
import Mustache.Text.Hex

/-!
# JSON texts

A JSON text read by its grammar alone. Two things that the grammar allows stand for nothing:
an escaped half of a surrogate pair, and a number too large for a double. The tree keeps their
places, so that a reader can refuse them where it looks and pass them by where it does not.
-/

namespace Mustache.Json

/-- A JSON text by its grammar. -/
inductive Tree where
  /-- The word null. -/
  | null
  /-- One of the words true and false. -/
  | bool (value : Bool)
  /-- A number, if it stands for one. -/
  | number (value : Option Number)
  /-- A string, if it stands for a text. -/
  | string (text : Option String)
  /-- A list of values. -/
  | array (items : List Tree)
  /-- A list of named values, in the order of the text. -/
  | object (members : List (Option String × Tree))
  deriving Inhabited

namespace Tree

/-- A text without the blanks of the grammar at its start. -/
def skipBlanks (text : List Char) : List Char :=
  text.dropWhile fun character =>
    character == ' ' || character == '\n' || character == '\t' || character == '\r'

/-- Whether a character is a decimal digit. -/
def isDigit (character : Char) : Bool :=
  '0' ≤ character && character ≤ '9'

/-- The decimals of a number, with the point. -/
def readDecimals? : List Char → Option (Option (List Char) × List Char)
  | '.' :: rest =>
    let digits := rest.takeWhile isDigit
    if digits.isEmpty then none else some (some digits, rest.dropWhile isDigit)
  | rest => some (none, rest)

/-- The digits of an exponent after its sign. -/
def readPowerDigits? (negative : Bool) (text : List Char) :
    Option (Option (Bool × List Char) × List Char) :=
  let digits := text.takeWhile isDigit
  if digits.isEmpty then none else some (some (negative, digits), text.dropWhile isDigit)

/-- The exponent of a number, with its letter. -/
def readPower? : List Char → Option (Option (Bool × List Char) × List Char)
  | letter :: rest =>
    if letter == 'e' || letter == 'E' then
      match rest with
      | '+' :: digits => readPowerDigits? false digits
      | '-' :: digits => readPowerDigits? true digits
      | digits => readPowerDigits? false digits
    else some (none, letter :: rest)
  | [] => some (none, [])

/-- A number after its sign. -/
def readUnsigned? (negative : Bool) (text : List Char) : Option (Numeral × List Char) :=
  let whole := text.takeWhile isDigit
  let startsWell := match whole with
    | [] => false
    | '0' :: more => more.isEmpty
    | _ => true
  if startsWell then do
    let (decimals, rest) ← readDecimals? (text.dropWhile isDigit)
    let (power, rest) ← readPower? rest
    return (⟨negative, whole, decimals, power⟩, rest)
  else none

/-- A number. -/
def readNumeral? : List Char → Option (Numeral × List Char)
  | '-' :: rest => readUnsigned? true rest
  | text => readUnsigned? false text

/-- The number of a hexadecimal digit. -/
def hexValue? (character : Char) : Option Nat :=
  if character.toNat < 128 then (Text.Hex.value? character.toUInt8).map UInt8.toNat else none

/-- The number of four hexadecimal digits. -/
def hexValues? (first second third fourth : Char) : Option Nat := do
  let first ← hexValue? first
  let second ← hexValue? second
  let third ← hexValue? third
  let fourth ← hexValue? fourth
  return ((first * 16 + second) * 16 + third) * 16 + fourth

/-- The character for which a letter after a backslash stands. -/
def escaped? : Char → Option Char
  | '"' => some '"'
  | '\\' => some '\\'
  | '/' => some '/'
  | 'b' => some '\x08'
  | 'f' => some '\x0c'
  | 'n' => some '\n'
  | 'r' => some '\r'
  | 't' => some '\t'
  | _ => none

/-- The codes of a string after its opening quotation mark, up to the closing one, and what
follows. An escape by number gives that number, whether a character has it or not. -/
def readCodes? : List Char → Option (List Nat × List Char)
  | [] => none
  | '"' :: rest => some ([], rest)
  | '\\' :: 'u' :: first :: second :: third :: fourth :: rest => do
    let code ← hexValues? first second third fourth
    let (codes, after) ← readCodes? rest
    return (code :: codes, after)
  | '\\' :: letter :: rest => do
    let character ← escaped? letter
    let (codes, after) ← readCodes? rest
    return (character.toNat :: codes, after)
  | character :: rest =>
    if character.toNat < 0x20 || character == '\\' then none
    else do
      let (codes, after) ← readCodes? rest
      return (character.toNat :: codes, after)

/-- The characters of a sequence of codes; two halves of a surrogate pair make one character,
and a half that stands alone is no character. -/
def charactersOfCodes? : List Nat → Option (List Char)
  | [] => some []
  | high :: rest =>
    if 0xd800 ≤ high && high ≤ 0xdbff then
      match rest with
      | low :: rest =>
        if 0xdc00 ≤ low && low ≤ 0xdfff then
          (charactersOfCodes? rest).map
            (Char.ofNat (0x10000 + (high - 0xd800) * 0x400 + (low - 0xdc00)) :: ·)
        else none
      | [] => none
    else if 0xdc00 ≤ high && high ≤ 0xdfff then none
    else (charactersOfCodes? rest).map (Char.ofNat high :: ·)

/-- A string after its opening quotation mark. -/
def readString? (text : List Char) : Option (Option String × List Char) :=
  (readCodes? text).map fun (codes, rest) =>
    ((charactersOfCodes? codes).map String.ofList, rest)

mutual

/-- The value at the start of a text, which is no blank, and what follows it. -/
def readValue? (fuel : Nat) (text : List Char) : Option (Tree × List Char) :=
  match fuel with
  | 0 => none
  | fuel + 1 =>
    match text with
    | 'n' :: 'u' :: 'l' :: 'l' :: rest => some (.null, rest)
    | 't' :: 'r' :: 'u' :: 'e' :: rest => some (.bool true, rest)
    | 'f' :: 'a' :: 'l' :: 's' :: 'e' :: rest => some (.bool false, rest)
    | '"' :: rest => (readString? rest).map fun (text, rest) => (.string text, rest)
    | '[' :: rest =>
      match skipBlanks rest with
      | ']' :: rest => some (.array [], rest)
      | rest => (readItems? fuel rest).map fun (items, rest) => (.array items, rest)
    | '\x7b' :: rest =>
      match skipBlanks rest with
      | '\x7d' :: rest => some (.object [], rest)
      | rest => (readMembers? fuel rest).map fun (members, rest) => (.object members, rest)
    | _ => (readNumeral? text).map fun (numeral, rest) => (.number numeral.value?, rest)

/-- The values of a list from one of them to the closing bracket. -/
def readItems? (fuel : Nat) (text : List Char) : Option (List Tree × List Char) :=
  match fuel with
  | 0 => none
  | fuel + 1 => do
    let (item, rest) ← readValue? fuel text
    match skipBlanks rest with
    | ']' :: rest => return ([item], rest)
    | ',' :: rest =>
      let (items, rest) ← readItems? fuel (skipBlanks rest)
      return (item :: items, rest)
    | _ => none

/-- The named values from one of them to the closing brace. -/
def readMembers? (fuel : Nat) (text : List Char) :
    Option (List (Option String × Tree) × List Char) :=
  match fuel with
  | 0 => none
  | fuel + 1 =>
    match text with
    | '"' :: rest => do
      let (name, rest) ← readString? rest
      match skipBlanks rest with
      | ':' :: rest =>
        let (value, rest) ← readValue? fuel (skipBlanks rest)
        match skipBlanks rest with
        | '\x7d' :: rest => return ([(name, value)], rest)
        | ',' :: rest =>
          let (members, rest) ← readMembers? fuel (skipBlanks rest)
          return ((name, value) :: members, rest)
        | _ => none
      | _ => none
    | _ => none

end

/-- The tree of a text that is a JSON text as a whole. -/
def parse? (source : String) : Option Tree :=
  match readValue? (2 * source.length + 2) (skipBlanks source.toList) with
  | some (tree, rest) => if (skipBlanks rest).isEmpty then some tree else none
  | none => none

end Tree

end Mustache.Json
