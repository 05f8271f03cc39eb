import Mustache.Scope.Basic
import Mustache.Text.Split

/-!
# Resolving paths

What a path of names names from a scope. The first name is looked for in the frames from the
innermost outwards, in each among the bound names before the host value; every further name is
looked for in the value found so far and nowhere else. A method that is given a frame is given
the one on whose behalf the path is resolved, wherever its object was found.
-/

namespace Mustache

/-- What a path names. -/
inductive Resolved where
  /-- A value. -/
  | value (value : Value)
  /-- A list that holds nothing, or is not there. -/
  | empty
  /-- Nothing. -/
  | absent
  deriving Inhabited

/-- The value that was found, if any. -/
def Resolved.value? : Resolved → Option Value
  | .value found => some found
  | .empty | .absent => none

/-- What a name names in one place. -/
inductive Finding where
  /-- A value. -/
  | found (value : Value)
  /-- A list that holds nothing, or is not there. -/
  | empty
  /-- Nothing, although the name is known. -/
  | absent
  /-- The name is not known. -/
  | unknown
  deriving Inhabited

/-- A step that may find or remember members, and that may never come to an end. -/
abbrev Resolution := ExceptT Stall (StateM AccessorCache)

namespace Resolution

/-- A step that uses no members. -/
def ofExcept {α : Type} (result : Except Stall α) : Resolution α :=
  fun cache => (result, cache)

/-- A step on the members that were found. -/
def ofState {α : Type} (action : StateM AccessorCache α) : Resolution α :=
  fun cache =>
    let (value, cache) := action cache
    (.ok value, cache)

/-- A step that never comes to an end. -/
def stalled {α : Type} (stall : Stall) : Resolution α :=
  fun cache => (.error stall, cache)

end Resolution

namespace Path

/-- The names of a path. -/
def components (path : String) : List String :=
  (Text.splitOn '.' path.toList).map String.ofList

/-- The path that names the innermost host value. -/
def implicit : String := "."

/-- The position that a name stands for: decimal digits, perhaps after a plus sign, of a
number that is an unsigned word. -/
def index? (name : String) : Option Nat :=
  let digits := match name.toList with
    | '+' :: digits => digits
    | digits => digits
  if digits.isEmpty || ! digits.all Json.Tree.isDigit then none
  else
    let position := Json.digitsValue digits
    if position < Nat.pow 2 64 then some position else none

end Path

/-- The part of a document under a name. -/
def Document.child? (document : Document) (name : String) : Option Document :=
  match document with
  | .object members => members.lookup name
  | .array items => (Path.index? name).bind fun position => items[position]?
  | _ => none

/-- What a name names in a document. Null is as good as nothing. -/
def Document.find (document : Document) (name : String) : Finding :=
  match document.child? name with
  | none | some .null => .unknown
  | some child => .found (Value.ofDocument child)

/-- A known value, or that the name is not known. -/
def Finding.ofOption : Option Value → Finding
  | some value => .found value
  | none => .unknown

/-- What a method that is given the frame `origin` answers with; `resolve` resolves paths from
that frame, and `route` leads from the object to the one that the method belongs to. -/
def ContextCall.answer (resolve : String → Resolution Resolved) (host : Host) (origin : Scope)
    (identity : Nat) (route : List Nat) : ContextCall → Resolution (Option Value)
  | .own key => pure (host.fieldAt? identity route key)
  | .hostText =>
    match origin.frame.host with
    | none => pure none
    | some value => do
      let text ← Resolution.ofExcept (host.text value)
      return some (.str text)
  | .depth => pure (some (.int (Int64.ofNat origin.depth)))
  | .hasParent => pure (some (.bool origin.hasParent))
  | .binding name => pure (origin.frame.binding? name)
  | .resolution path => do return (← resolve path).value?

namespace Accessor

/-- What a member says when it answers with a value or with nothing. -/
def finding (accessor : Accessor) : Option Value → Finding
  | some (.list []) => if accessor.isIterable then .empty else .found (.list [])
  | some value => .found value
  | none => if accessor.isIterable then .empty else .absent

/-- What a member of an object answers with on behalf of the frame `origin`. -/
def read (resolve : String → Resolution Resolved) (host : Host) (origin : Scope)
    (identity : Nat) (accessor : Accessor) : Resolution (Option Value) := do
  let found ← match accessor.member.reading with
    | .field key | .method key => pure (host.fieldAt? identity accessor.route key)
    | .contextMethod call => call.answer resolve host origin identity accessor.route
  return accessor.member.shape.answer found

end Accessor

namespace Scope

/-- What a name names in a value that is not deferred, on behalf of the frame `origin`. -/
def findConcrete (resolve : String → Resolution Resolved) (host : Host) (origin : Scope)
    (value : Value) (name : String) : Resolution Finding :=
  match value with
  | .map entries => pure (.ofOption (entries.lookup name))
  | .list items => pure (.ofOption ((Path.index? name).bind fun position => items[position]?))
  | .document document => pure (document.find name)
  | .object identity => do
    match ← Resolution.ofState (AccessorCache.resolve host.schema (host.typeOf identity) name) with
    | none => return .unknown
    | some accessor => return accessor.finding (← accessor.read resolve host origin identity)
  | .bool _ | .int _ | .float _ | .str _ | .deferred _ => pure .unknown

/-- What a name names in a value, on behalf of the frame `origin`. -/
def find (resolve : String → Resolution Resolved) (host : Host) (origin : Scope)
    (value : Value) (name : String) : Resolution Finding := do
  match ← Resolution.ofExcept (host.settle value) with
  | none => return .unknown
  | some concrete => findConcrete resolve host origin concrete name

/-- What is found when a value has settled. -/
def settled (host : Host) (value : Value) : Resolution Resolved := do
  match ← Resolution.ofExcept (host.settle value) with
  | none => return .absent
  | some concrete => return .value concrete

/-- What the names `rest` name one after another, beginning in a value. -/
def descend (resolve : String → Resolution Resolved) (host : Host) (origin : Scope)
    (value : Value) : List String → Resolution Resolved
  | [] => settled host value
  | name :: rest => do
    match ← find resolve host origin value name with
    | .found next => descend resolve host origin next rest
    | .empty => return .empty
    | .absent | .unknown => return .absent

/-- What a name names in a frame. -/
def findInFrame (resolve : String → Resolution Resolved) (host : Host) (origin : Scope)
    (frame : Frame) (name : String) : Resolution Finding :=
  match frame.binding? name with
  | some value => pure (.found value)
  | none =>
    match frame.host with
    | some value => find resolve host origin value name
    | none => pure .unknown

/-- What the name `first` and then the names `rest` name from the innermost of some frames. -/
def resolveNames (resolve : String → Resolution Resolved) (host : Host) (origin : Scope)
    (first : String) (rest : List String) : List Frame → Resolution Resolved
  | [] => return .absent
  | frame :: outer => do
    match ← findInFrame resolve host origin frame first with
    | .found value => descend resolve host origin value rest
    | .empty => return .empty
    | .absent => return .absent
    | .unknown => resolveNames resolve host origin first rest outer

/-- The innermost host value. -/
def implicitValue? (scope : Scope) : Option Value :=
  scope.frames.findSome? Frame.host

/-- What a path names from a scope, where methods resolve paths by `resolve`. -/
def resolveUsing (resolve : String → Resolution Resolved) (host : Host) (scope : Scope)
    (path : String) : Resolution Resolved :=
  if path = Path.implicit then
    match scope.implicitValue? with
    | some value => settled host value
    | none => return .absent
  else
    match Path.components path with
    | [] => return .absent
    | first :: rest => resolveNames resolve host scope first rest scope.frames

/-- What a path names from a scope, where methods resolve paths at most `count` deep inside
each other. -/
def resolveWithin (host : Host) (scope : Scope) (count : Nat) (path : String) :
    Resolution Resolved :=
  resolveUsing
    (match count with
      | 0 => fun _ => Resolution.stalled .circular
      | count + 1 => resolveWithin host scope count)
    host scope path

/-- What a path names from a scope. A method that resolves a path does so from the same frame,
so if more of them are inside each other than there are, they go round in a circle. -/
def resolve (host : Host) (scope : Scope) (path : String) : Resolution Resolved :=
  resolveWithin host scope host.resolvingMethods path

end Scope

end Mustache
