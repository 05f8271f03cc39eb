import Mustache.Text.Blank

/-!
# Tags

What a tag's body asks for. The first character that is no white space decides; the rest of
the body, without the white space around it, is the name.
-/

namespace Mustache

/-- How often a block's content is rendered. -/
inductive BlockKind where
  /-- Once for each element of what the path names. -/
  | iterable
  /-- Once, when the path names nothing. -/
  | inverted
  deriving Repr, DecidableEq, Inhabited

/-- The meaning of a tag. -/
inductive Tag where
  /-- The start of a block. -/
  | openBlock (kind : BlockKind) (name : String)
  /-- The end of the innermost open block. -/
  | closeBlock (name : String)
  /-- The place of another template. -/
  | partialCall (name : String)
  /-- The place of a value, as it is or escaped. -/
  | interpolation (path : String) (escaped : Bool)
  /-- A remark. -/
  | comment (text : String)
  /-- A directive to the template processor. -/
  | pragma (text : String)
  /-- A body of white space alone. -/
  | empty
  deriving Repr, DecidableEq, Inhabited

namespace Tag

/-- A name without the brace that may end it. -/
def withoutBrace (name : List Char) : List Char :=
  if name.getLast? == some '\x7d' then name.dropLast else name

/-- The meaning of a tag's body. -/
def ofBody (body : String) : Tag :=
  match Text.trim body.toList with
  | [] => .empty
  | marker :: following =>
    let name := Text.trim following
    match marker with
    | '#' => .openBlock .iterable (String.ofList name)
    | '^' => .openBlock .inverted (String.ofList name)
    | '/' => .closeBlock (String.ofList name)
    | '>' => .partialCall (String.ofList name)
    | '\x7b' => .interpolation (String.ofList (Text.trim (withoutBrace name))) false
    | '&' => .interpolation (String.ofList name) false
    | '!' => .comment (String.ofList name)
    | '%' => .pragma (String.ofList name)
    | _ => .interpolation (String.ofList (marker :: following)) true

/-- Whether a tag opens or closes a block. -/
def isControl : Tag → Bool
  | .openBlock _ _ | .closeBlock _ => true
  | _ => false

end Tag

end Mustache
