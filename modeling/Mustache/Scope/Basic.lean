import Mustache.Host.Basic

/-!
# Scopes

A scope is a chain of frames. Each frame may hold a host value and may bind names of its own;
the innermost frame is the one that templates see first. The members of objects that were
found are remembered in an `AccessorCache`, by the object's type and the member's name. One path is
resolved after the other; threads that share such a cache are left out.
-/

namespace Mustache

/-- One frame of a scope. -/
structure Frame where
  /-- The host value, if there is one. -/
  host : Option Value := none
  /-- The names that are bound in the frame. -/
  bindings : List (String × Value) := []
  deriving Inhabited

namespace Frame

/-- A frame around a host value. -/
def ofHost (value : Value) : Frame :=
  { host := some value }

/-- What a name is bound to in a frame. -/
def binding? (frame : Frame) (name : String) : Option Value :=
  frame.bindings.lookup name

/-- A frame with a name bound to a value; the name was perhaps bound to another one before. -/
def bind (frame : Frame) (name : String) (value : Value) : Frame :=
  { frame with bindings := (name, value) :: frame.bindings.filter (·.1 != name) }

end Frame

/-- A chain of frames. -/
structure Scope where
  /-- The innermost frame. -/
  frame : Frame
  /-- The frames around it, nearest first. -/
  ancestors : List Frame
  deriving Inhabited

namespace Scope

/-- A scope of one frame. -/
def root (frame : Frame) : Scope :=
  ⟨frame, []⟩

/-- The scope inside a scope that has one more frame. -/
def enter (scope : Scope) (frame : Frame) : Scope :=
  ⟨frame, scope.frame :: scope.ancestors⟩

/-- The scope inside a scope with a frame for a host value, or for none. -/
def child (scope : Scope) (host : Option Value) : Scope :=
  scope.enter { host := host }

/-- The scope of some frames, outermost first. No frames are one empty frame. -/
def ofFrames : List Frame → Scope
  | [] => root {}
  | first :: rest => rest.foldl enter (root first)

/-- A scope with a name bound in its innermost frame. -/
def bind (scope : Scope) (name : String) (value : Value) : Scope :=
  { scope with frame := scope.frame.bind name value }

/-- All frames, innermost first. -/
def frames (scope : Scope) : List Frame :=
  scope.frame :: scope.ancestors

/-- The number of frames. -/
def depth (scope : Scope) : Nat :=
  scope.frames.length

/-- Whether a frame is around the innermost one. -/
def hasParent (scope : Scope) : Bool :=
  ! scope.ancestors.isEmpty

end Scope

/-- The members that were found, under the number of a type and a name. -/
structure AccessorCache where
  /-- The members, in the order in which they were found. -/
  entries : List ((Nat × String) × Accessor) := []
  deriving Inhabited

namespace AccessorCache

/-- The number of members that were found. -/
def size (cache : AccessorCache) : Nat :=
  cache.entries.length

/-- Whether nothing was found yet. -/
def isEmpty (cache : AccessorCache) : Bool :=
  cache.entries.isEmpty

/-- The member that a type has under a name, looked up among those found before and searched
for otherwise. What is found is remembered. -/
def resolve (schema : Schema) (type : Nat) (name : String) :
    StateM AccessorCache (Option Accessor) := fun cache =>
  match cache.entries.lookup (type, name) with
  | some accessor => (some accessor, cache)
  | none =>
    match schema.find? type name with
    | none => (none, cache)
    | some accessor => (some accessor, { entries := cache.entries ++ [((type, name), accessor)] })

end AccessorCache

end Mustache
