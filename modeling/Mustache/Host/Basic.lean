import Mustache.Host.Value

/-!
# Hosts

The host program as far as its data can show it: the slots of the values that are computed
elsewhere, the objects, and the types of the objects. Settling a value follows slots until a
value is found that is none. A slot that nobody has filled yet would be waited for without end,
and so would slots that lead to each other in a circle; both are a `Stall`.
-/

namespace Mustache

/-- What has become of a value that is computed elsewhere. -/
inductive Slot where
  /-- It is still being computed. -/
  | pending
  /-- It has been computed. -/
  | ready (value : Value)
  /-- Whoever was to compute it has given up. -/
  | dropped
  deriving Inhabited

/-- What an object holds. -/
structure HostObject where
  /-- The number of the object's type. -/
  type : Nat
  /-- The text that is written for the object. -/
  text : Option String
  /-- The values that its members find, under their keys. -/
  fields : List (String × Value)
  /-- The embedded objects, under the numbers of their types. -/
  bases : List (Nat × Nat)
  deriving Inhabited

/-- The data of a host program. -/
structure Host where
  /-- The types of objects. -/
  schema : Schema
  /-- The objects, each known by its place. -/
  objects : Array HostObject
  /-- The values computed elsewhere, each known by its place. -/
  slots : Array Slot
  deriving Inhabited

/-- Why a value never comes. -/
inductive Stall where
  /-- A slot has not been filled. -/
  | pending (slot : Nat)
  /-- The value leads back to itself. -/
  | circular
  deriving Repr, DecidableEq, Inhabited

/-- What is said about a value that never comes. -/
def Stall.message : Stall → String
  | .pending slot => s!"deferred value {slot} is still pending"
  | .circular => "a value waits for itself"

namespace Host

/-- A host with types and without data. -/
def ofSchema (schema : Schema) : Host :=
  ⟨schema, #[], #[]⟩

/-- A host with one more object, and the object. -/
def addObject (host : Host) (object : HostObject) : Nat × Host :=
  (host.objects.size, { host with objects := host.objects.push object })

/-- A host with one more slot, and the slot. -/
def addSlot (host : Host) (slot : Slot) : Nat × Host :=
  (host.slots.size, { host with slots := host.slots.push slot })

/-- What is in a slot. Where there is no slot nothing will come. -/
def slot (host : Host) (number : Nat) : Slot :=
  host.slots[number]?.getD .dropped

/-- What has come of a slot. -/
def wait (host : Host) (number : Nat) : Except Stall (Option Value) :=
  match host.slot number with
  | .pending => .error (.pending number)
  | .ready value => .ok (some value)
  | .dropped => .ok none

/-- A value after at most `count` slots on its way, or nothing if one of them was dropped. -/
def settleWithin (host : Host) (count : Nat) (value : Value) : Except Stall (Option Value) :=
  match value with
  | .deferred number =>
    match count with
    | 0 => .error .circular
    | count + 1 =>
      match host.wait number with
      | .error stall => .error stall
      | .ok none => .ok none
      | .ok (some next) => settleWithin host count next
  | concrete => .ok (some concrete)

/-- What a value settles to. A way through more slots than there are leads in a circle. -/
def settle (host : Host) (value : Value) : Except Stall (Option Value) :=
  host.settleWithin host.slots.size value

/-- The text of a value that is not deferred. -/
def concreteText (host : Host) : Value → String
  | .str text => text
  | .bool value => if value then "true" else "false"
  | .int value => toString value.toInt
  | .float value => NumberFormat.output.write value
  | .document document => document.plainText
  | .object identity => (host.objects[identity]?.bind HostObject.text).getD ""
  | .list _ | .map _ | .deferred _ => ""

/-- The text that is written for a value. -/
def text (host : Host) (value : Value) : Except Stall String :=
  match host.settle value with
  | .error stall => .error stall
  | .ok none => .ok ""
  | .ok (some concrete) => .ok (host.concreteText concrete)

/-- The object that embedded types lead to from an object. -/
def embedded? (host : Host) (identity : Nat) : List Nat → Option HostObject
  | [] => host.objects[identity]?
  | base :: route =>
    match host.objects[identity]? with
    | none => none
    | some object =>
      match object.bases.lookup base with
      | none => none
      | some inner => embedded? host inner route

/-- The value under a key of the object that embedded types lead to. An embedded object that
was not given holds nothing. -/
def fieldAt? (host : Host) (identity : Nat) (route : List Nat) (key : String) : Option Value :=
  (host.embedded? identity route).bind fun object => object.fields.lookup key

/-- The number of an object's type. -/
def typeOf (host : Host) (identity : Nat) : Nat :=
  match host.objects[identity]? with
  | some object => object.type
  | none => 0

/-- How many methods of all types resolve a path. -/
def resolvingMethods (host : Host) : Nat :=
  host.schema.flatten.countP fun declaration =>
    match declaration with
    | .member ⟨_, .contextMethod (.resolution _), _⟩ => true
    | _ => false

end Host

end Mustache
