import Mustache.Json.Tree

/-!
# Fields of objects

How a record is read from a JSON object: its members may stand in any order, a member of
another name is passed by, and a name that occurs twice is a fault, as is one that stands for
no text.
-/

namespace Mustache.Json

/-- Named values, with each name in its text form. -/
abbrev Fields := List (String × Tree)

namespace Fields

/-- The members of an object, if all their names stand for texts. -/
def ofMembers? : List (Option String × Tree) → Option Fields
  | [] => some []
  | (none, _) :: _ => none
  | (some name, value) :: rest => (ofMembers? rest).map ((name, value) :: ·)

/-- The values of all members with a name. -/
def values (fields : Fields) (name : String) : List Tree :=
  (fields.filter (·.1 == name)).map (·.2)

/-- The value of the member with a name, if there is one. It is a fault if there are more. -/
def optional? (fields : Fields) (name : String) : Option (Option Tree) :=
  match fields.values name with
  | [] => some none
  | [value] => some (some value)
  | _ => none

/-- The value of the member with a name, which must be there once. -/
def required? (fields : Fields) (name : String) : Option Tree :=
  (fields.optional? name).join

/-- Whether the first member with one of two names has the first of them. -/
def startsWith (fields : Fields) (name other : String) : Bool :=
  (fields.map (·.1)).find? (fun found => found == name || found == other) == some name

end Fields

/-- The text that a tree stands for, if it is a string. -/
def Tree.text? : Tree → Option String
  | .string text => text
  | _ => none

end Mustache.Json
