import Mustache.Host.Schema
import Mustache.Json.Printer
import Mustache.Text.Quoted

/-!
# Host values

The data that templates are rendered against. Besides plain values and documents there are two
that stand for something of the host program: a value that is computed elsewhere and an object.
Either is known by a number, so two of them are equal exactly when they are the same one.
-/

namespace Mustache

/-- A value of the host program. -/
inductive Value where
  /-- A truth value. -/
  | bool (value : Bool)
  /-- A whole number. -/
  | int (value : Int64)
  /-- A double precision number. -/
  | float (value : Binary64)
  /-- A text. -/
  | str (text : String)
  /-- A list. -/
  | list (items : List Value)
  /-- Values under names, in the order of the names. -/
  | map (entries : List (String × Value))
  /-- A document. -/
  | document (document : Document)
  /-- A value that is computed elsewhere, known by its slot. -/
  | deferred (slot : Nat)
  /-- An object. -/
  | object (identity : Nat)
  deriving Inhabited

namespace Value

/-- Values under names, of which the last value of each name counts. -/
def ofEntries (entries : List (String × Value)) : Value :=
  .map (sortMembers entries)

/-- An unsigned word as a whole number if it fits, else as the nearest double. -/
def ofUInt64 (word : UInt64) : Value :=
  if word.toNat < Nat.pow 2 63 then .int (Int64.ofNat word.toNat)
  else .float (Binary64.ofNat word.toNat)

/-- A document as a value; its texts and truth values become plain ones. -/
def ofDocument : Document → Value
  | .string text => .str text
  | .bool value => .bool value
  | other => .document other

mutual

/-- Equality of values. Numbers of different kinds are never equal; deferred values and objects
are equal when they are the same. -/
def same : Value → Value → Bool
  | .bool left, .bool right => left == right
  | .int left, .int right => left == right
  | .float left, .float right => left.same right
  | .str left, .str right => left == right
  | .list left, .list right => sameItems left right
  | .map left, .map right => sameEntries left right
  | .document left, .document right => left.same right
  | .deferred left, .deferred right => left == right
  | .object left, .object right => left == right
  | _, _ => false

/-- Equality of lists of values. -/
def sameItems : List Value → List Value → Bool
  | [], [] => true
  | left :: lefts, right :: rights => same left right && sameItems lefts rights
  | _, _ => false

/-- Equality of named values. -/
def sameEntries : List (String × Value) → List (String × Value) → Bool
  | [], [] => true
  | (leftName, left) :: lefts, (rightName, right) :: rights =>
    leftName == rightName && same left right && sameEntries lefts rights
  | _, _ => false

end

end Value

/-- The text of a document where a value is written: of null nothing, of a string its
characters, of everything else its JSON text. -/
def Document.plainText : Document → String
  | .null => ""
  | .string text => text
  | document => document.text

namespace Shape

/-- What a member with a shape answers with, from the value it found. A value that is no list
becomes a list of one. -/
def answer : Shape → Option Value → Option Value
  | .optional, found => found
  | .required, found => some (found.getD (.str ""))
  | .list, none => some (.list [])
  | .optionalList, none => none
  | .list, some (.list items) | .optionalList, some (.list items) => some (.list items)
  | .list, some value | .optionalList, some value => some (.list [value])

end Shape

end Mustache
