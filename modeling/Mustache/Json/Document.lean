import Mustache.Json.Tree

/-!
# Documents

A JSON document as a value. The members of an object that was read stand in the order of their
names, and of two members with one name the later counts. A text nested too deep is no
document, nor is one that holds half a surrogate pair or a number too large.
-/

namespace Mustache

open Json

/-- A JSON document. -/
inductive Document where
  /-- Nothing. -/
  | null
  /-- A truth value. -/
  | bool (value : Bool)
  /-- A number. -/
  | number (value : Number)
  /-- A text. -/
  | string (text : String)
  /-- A list. -/
  | array (items : List Document)
  /-- Named values. -/
  | object (members : List (String × Document))
  deriving Inhabited

/-- Named values in the order of the names with one put among them; it replaces one of the
same name. -/
def insertSorted {α : Type} (name : String) (value : α) :
    List (String × α) → List (String × α)
  | [] => [(name, value)]
  | (other, existing) :: rest =>
    if name < other then (name, value) :: (other, existing) :: rest
    else if name = other then (name, value) :: rest
    else (other, existing) :: insertSorted name value rest

/-- Named values in the order of the names; of those with one name the last is kept. -/
def sortMembers {α : Type} (members : List (String × α)) : List (String × α) :=
  members.foldl (fun sorted (name, value) => insertSorted name value sorted) []

namespace Document

/-- How deep the values of a document may be nested. -/
def maxDepth : Nat := 127

mutual

/-- The document of a tree, if at most `depth` values are nested in it. -/
def ofTree? (depth : Nat) : Tree → Option Document
  | .null => some .null
  | .bool value => some (.bool value)
  | .number value => value.map .number
  | .string text => text.map .string
  | .array items =>
    match depth with
    | 0 => none
    | depth + 1 => (ofItems? depth items).map .array
  | .object members =>
    match depth with
    | 0 => none
    | depth + 1 => (ofMembers? depth members).map fun members => .object (sortMembers members)

/-- The documents of a list of trees. -/
def ofItems? (depth : Nat) : List Tree → Option (List Document)
  | [] => some []
  | item :: rest =>
    match ofTree? depth item, ofItems? depth rest with
    | some item, some rest => some (item :: rest)
    | _, _ => none

/-- The documents of named trees. -/
def ofMembers? (depth : Nat) : List (Option String × Tree) → Option (List (String × Document))
  | [] => some []
  | (name, value) :: rest =>
    match name, ofTree? depth value, ofMembers? depth rest with
    | some name, some value, some rest => some ((name, value) :: rest)
    | _, _, _ => none

end

/-- The document that a text spells. -/
def parse? (source : String) : Option Document :=
  (Tree.parse? source).bind (ofTree? maxDepth)

mutual

/-- Equality of documents; numbers are equal when they stand for the same. -/
def same : Document → Document → Bool
  | .null, .null => true
  | .bool left, .bool right => left == right
  | .number left, .number right => left.same right
  | .string left, .string right => left == right
  | .array left, .array right => sameItems left right
  | .object left, .object right => sameMembers left right
  | _, _ => false

/-- Equality of lists of documents. -/
def sameItems : List Document → List Document → Bool
  | [], [] => true
  | left :: lefts, right :: rights => same left right && sameItems lefts rights
  | _, _ => false

/-- Equality of named documents. -/
def sameMembers : List (String × Document) → List (String × Document) → Bool
  | [], [] => true
  | (leftName, left) :: lefts, (rightName, right) :: rights =>
    leftName == rightName && same left right && sameMembers lefts rights
  | _, _ => false

end

mutual

/-- A document with the members of all its objects in the order of their names. -/
def sorted : Document → Document
  | .array items => .array (sortedItems items)
  | .object members => .object (sortMembers (sortedMembers members))
  | document => document

/-- Documents with the members of all their objects in the order of their names. -/
def sortedItems : List Document → List Document
  | [] => []
  | item :: rest => sorted item :: sortedItems rest

/-- Named documents with the members of all their objects in the order of their names. -/
def sortedMembers : List (String × Document) → List (String × Document)
  | [] => []
  | (name, value) :: rest => (name, sorted value) :: sortedMembers rest

end

end Document

end Mustache
