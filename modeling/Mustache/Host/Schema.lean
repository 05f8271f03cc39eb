/-!
# Schemas

The types of host objects and the members they declare. A type has fields, methods, and methods
that see the frame on whose behalf they are called, and it may embed other types, whose members
it then has too. `Schema.find?` looks among the fields of the whole hierarchy first, then among
its methods, and last among the methods that see a frame; within one kind a type's own members
come before those of a type embedded after them.
-/

namespace Mustache

/-- The kinds of members, from the one that is looked at first to the one looked at last. -/
inductive MemberKind where
  /-- A field. -/
  | field
  /-- A method. -/
  | method
  /-- A method that is given the requesting frame. -/
  | contextMethod
  deriving Repr, DecidableEq, Inhabited

/-- What a method that is given the requesting frame answers with. Such a method may be any function
of the object and of the scope; these six stand for what such functions look at, one call of a scope
at a time. They leave out methods that tell host values apart by their form, methods that look at
the host values and the bindings of the frames around, methods that look at the members found so far
(`AccessorCache`), and methods that put several of these together. What is said of objects without
such methods (`MemberKind.contextMethod`) does not depend on this choice. -/
inductive ContextCall where
  /-- The value that the object holds under a key. -/
  | own (key : String)
  /-- The text of the frame's host value. -/
  | hostText
  /-- The number of frames from the root to the frame. -/
  | depth
  /-- Whether the frame has a parent. -/
  | hasParent
  /-- What a name is bound to in the frame. -/
  | binding (name : String)
  /-- What a path names from the frame. -/
  | resolution (path : String)
  deriving Repr, DecidableEq, Inhabited

/-- How a member gets at its value. -/
inductive Reading where
  /-- A field with the value under a key. -/
  | field (key : String)
  /-- A method that answers with the value under a key. -/
  | method (key : String)
  /-- A method that is given the requesting frame. -/
  | contextMethod (call : ContextCall)
  deriving Repr, DecidableEq, Inhabited

/-- The kind of a member that is read in a certain way. -/
def Reading.kind : Reading → MemberKind
  | .field _ => .field
  | .method _ => .method
  | .contextMethod _ => .contextMethod

/-- The type of what a member answers with. -/
inductive Shape where
  /-- A value, or nothing. -/
  | optional
  /-- A value; nothing becomes the empty text. -/
  | required
  /-- A list; nothing becomes the empty list. -/
  | list
  /-- A list, or nothing. -/
  | optionalList
  deriving Repr, DecidableEq, Inhabited

/-- Whether a shape is one of lists. -/
def Shape.isIterable : Shape → Bool
  | .optional | .required => false
  | .list | .optionalList => true

/-- A member as a type declares it. -/
structure Member where
  /-- The name under which it is found. -/
  name : String
  /-- How it gets at its value. -/
  reading : Reading
  /-- The type of its value. -/
  shape : Shape
  deriving Repr, DecidableEq, Inhabited

/-- A part of a type's declaration. -/
inductive Declaration where
  /-- A member. -/
  | member (member : Member)
  /-- An embedded type, given by its number. -/
  | inherit (base : Nat)
  deriving Repr, DecidableEq, Inhabited

/-- The declarations of all types, each type known by its number. -/
abbrev Schema := List (List Declaration)

/-- A member together with the embedded types that lead to the one declaring it. -/
structure Accessor where
  /-- The types to go through, outermost first. -/
  route : List Nat
  /-- The member. -/
  member : Member
  deriving Repr, DecidableEq, Inhabited

namespace Accessor

/-- The kind of the member. -/
def kind (accessor : Accessor) : MemberKind :=
  accessor.member.reading.kind

/-- Whether the member answers with a list. -/
def isIterable (accessor : Accessor) : Bool :=
  accessor.member.shape.isIterable

/-- An accessor as it is reached through one more type. -/
def through (base : Nat) (accessor : Accessor) : Accessor :=
  { accessor with route := base :: accessor.route }

end Accessor

namespace Schema

/-- The declarations of a type. -/
def declarations (schema : Schema) (type : Nat) : List Declaration :=
  schema[type]?.getD []

/-- All members of a type in the order of its declarations, those of an embedded type where it
is embedded. A type can only embed types with higher numbers. -/
def members (schema : Schema) (type : Nat) : List Accessor :=
  (schema.declarations type).flatMap fun declaration =>
    match declaration with
    | .member member => [⟨[], member⟩]
    | .inherit base =>
      if type < base ∧ base < schema.length then
        (members schema base).map (Accessor.through base)
      else []
  termination_by schema.length - type

/-- The first of a list of members with a name and a kind. -/
def firstOfKind? (members : List Accessor) (name : String) (kind : MemberKind) :
    Option Accessor :=
  members.find? fun accessor => accessor.member.name == name && accessor.kind == kind

/-- The member that a type has under a name. -/
def find? (schema : Schema) (type : Nat) (name : String) : Option Accessor :=
  [.field, .method, .contextMethod].findSome? (firstOfKind? (schema.members type) name)

end Schema

end Mustache
