import Mustache.Host.Value

/-!
# Data as documents

How the data of a host program becomes a document: numbers that are no numbers become null, a
single character becomes a text, and the keys of a mapping become names. Only texts, whole
numbers and truth values can be keys.
-/

namespace Mustache

/-- Data of a host program. -/
inductive Datum where
  /-- Nothing. -/
  | unit
  /-- A truth value. -/
  | bool (value : Bool)
  /-- A whole number. -/
  | integer (value : Int)
  /-- A double precision number. -/
  | float (value : Binary64)
  /-- A text. -/
  | text (text : String)
  /-- A single character. -/
  | character (character : Char)
  /-- Several data in a row. -/
  | sequence (items : List Datum)
  /-- Data under keys. -/
  | mapping (entries : List (Datum × Datum))
  deriving Inhabited

/-- Why data does not become a document. -/
inductive EncodingError where
  /-- A key of a mapping cannot be a name. -/
  | keyIsNoText
  deriving Repr, DecidableEq, Inhabited

/-- What is said about data that does not become a document. -/
def EncodingError.message : EncodingError → String
  | .keyIsNoText => "context serialization error: key must be a string"

namespace Datum

/-- The name that a key becomes. -/
def name : Datum → Except EncodingError String
  | .text content => .ok content
  | .character letter => .ok (String.singleton letter)
  | .integer value => .ok (toString value)
  | .bool value => .ok (if value then "true" else "false")
  | _ => .error .keyIsNoText

mutual

/-- The document that data becomes. -/
def document : Datum → Except EncodingError Document
  | .unit => .ok .null
  | .bool value => .ok (.bool value)
  | .integer value => .ok (.number (.integer value))
  | .float value => .ok (if value.isFinite then .number (.double value) else .null)
  | .text content => .ok (.string content)
  | .character letter => .ok (.string (String.singleton letter))
  | .sequence items =>
    match documents items with
    | .error error => .error error
    | .ok items => .ok (.array items)
  | .mapping entries =>
    match members entries with
    | .error error => .error error
    | .ok members => .ok (.object (sortMembers members))

/-- The documents that a row of data becomes. -/
def documents : List Datum → Except EncodingError (List Document)
  | [] => .ok []
  | item :: rest =>
    match document item, documents rest with
    | .ok item, .ok rest => .ok (item :: rest)
    | .error error, _ | _, .error error => .error error

/-- The members that data under keys becomes. -/
def members : List (Datum × Datum) → Except EncodingError (List (String × Document))
  | [] => .ok []
  | (key, value) :: rest =>
    match key.name, document value, members rest with
    | .ok name, .ok value, .ok rest => .ok ((name, value) :: rest)
    | .error error, _, _ | _, .error error, _ | _, _, .error error => .error error

end

end Datum

end Mustache
