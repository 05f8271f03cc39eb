import Mustache.Proofs.Host.Members
import Mustache.Proofs.Host.Settling
import Mustache.Scope.Basic
import Mathlib.Logic.Relation

/-!
# What can be got at from a value

A template that knows a value can get at its items, at what its slot was filled with, and at what
the members of an object find. `Host.Everywhere` says that something is true of a value and of
everything that can be got at from it in this way. For what is true of plain values as such, this
carries over to everything that is made of parts of which it is true. Objects without methods that
are given a frame (`Host.IsUncontextual`) are what this is mostly said of.
-/

namespace Mustache

namespace Host

variable {host : Host} {good : Value → Prop}

/-- A value can be got at from another one in one step. -/
inductive Holds (host : Host) : Value → Value → Prop where
  /-- An item of a list. -/
  | item {items : List Value} {value : Value} (member : value ∈ items) :
      Holds host (.list items) value
  /-- A value under a name. -/
  | entry {entries : List (String × Value)} {name : String} {value : Value}
      (member : (name, value) ∈ entries) : Holds host (.map entries) value
  /-- What a slot was filled with. -/
  | content {slot : Nat} {value : Value} (filled : host.slot slot = .ready value) :
      Holds host (.deferred slot) value
  /-- What a member of an object finds. -/
  | field {identity : Nat} {route : List Nat} {key : String} {value : Value}
      (found : host.fieldAt? identity route key = some value) : Holds host (.object identity) value

/-- Something is true of a value and of everything that can be got at from it. -/
def Everywhere (host : Host) (good : Value → Prop) (value : Value) : Prop :=
  ∀ part, Relation.ReflTransGen host.Holds value part → good part

/-- What is true `Everywhere` is true here. -/
theorem Everywhere.here {value : Value} (everywhere : host.Everywhere good value) : good value :=
  everywhere value .refl

/-- What is true `Everywhere` is so of what can be got at. -/
theorem Everywhere.of_holds {value part : Value} (everywhere : host.Everywhere good value)
    (holds : host.Holds value part) : host.Everywhere good part :=
  fun inner reached => everywhere inner (.head holds reached)

/-- What is true here and everywhere from what can be got at is true `Everywhere`. -/
theorem everywhere_of_holds {value : Value} (here : good value)
    (parts : ∀ part, host.Holds value part → host.Everywhere good part) :
    host.Everywhere good value := by
  intro part reached
  obtain rfl | ⟨next, holds, rest⟩ := reached.cases_head
  · exact here
  · exact parts next holds part rest

/-- What a value settles to within some slots (`settleWithin`) can be got at from it. -/
theorem Everywhere.settleWithin {count : Nat} {value settled : Value}
    (everywhere : host.Everywhere good value)
    (settles : host.settleWithin count value = .ok (some settled)) :
    host.Everywhere good settled := by
  induction count generalizing value with
  | zero =>
    cases value with
    | deferred => cases settles
    | bool | int | float | str | list | map | document | object =>
      cases settles
      exact everywhere
  | succ count inductionHypothesis =>
    cases value with
    | deferred slot =>
      rw [Host.settleWithin, wait] at settles
      cases content : host.slot slot with
      | pending | dropped =>
        rw [content] at settles
        cases settles
      | ready next =>
        rw [content] at settles
        exact inductionHypothesis (everywhere.of_holds (.content content)) settles
    | bool | int | float | str | list | map | document | object =>
      cases settles
      exact everywhere

/-- What a value settles to by `Host.settle` can be got at from it. -/
theorem Everywhere.settle {value settled : Value} (everywhere : host.Everywhere good value)
    (settles : host.settle value = .ok (some settled)) : host.Everywhere good settled :=
  everywhere.settleWithin settles

end Host

/-- A value that is neither deferred nor an object. -/
def Value.IsPlain : Value → Prop
  | .deferred _ | .object _ => False
  | _ => True

/-- A value from which nothing else can be got at. -/
def Value.IsSimple : Value → Prop
  | .list _ | .map _ | .deferred _ | .object _ => False
  | _ => True

theorem Value.IsSimple.isPlain {value : Value} (simple : value.IsSimple) : value.IsPlain := by
  cases value with
  | bool | int | float | str | document => trivial
  | list | map | deferred | object => cases simple

theorem Value.IsSimple.not_holds {host : Host} {value part : Value} (simple : value.IsSimple) :
    ¬ host.Holds value part := by
  intro holds
  cases holds with
  | item | entry | content | field => cases simple

namespace Host

variable {host : Host} {good : Value → Prop} (plain : ∀ value : Value, value.IsPlain → good value)

include plain

/-- What is true of plain values is true `Everywhere` from simple ones. -/
theorem everywhere_of_isSimple {value : Value} (simple : value.IsSimple) :
    host.Everywhere good value :=
  everywhere_of_holds (plain value simple.isPlain) fun _ holds => absurd holds simple.not_holds

/-- What is true of plain values is true `Everywhere` from the value of a document. -/
theorem everywhere_ofDocument (document : Document) :
    host.Everywhere good (Value.ofDocument document) := by
  cases document with
  | null | bool | number | string | array | object =>
    exact everywhere_of_isSimple plain trivial

/-- What is true of plain values is true `Everywhere` from a list if it is so from its items. -/
theorem everywhere_list {items : List Value} (each : ∀ item ∈ items, host.Everywhere good item) :
    host.Everywhere good (.list items) := by
  refine everywhere_of_holds (plain _ trivial) fun part holds => ?_
  obtain ⟨member⟩ := holds
  exact each part member

/-- What is true of plain values is true `Everywhere` from what a member answers if it is so from
what the member found. -/
theorem everywhere_answer {found : Option Value}
    (inside : ∀ value ∈ found, host.Everywhere good value) (shape : Shape) :
    ∀ value ∈ shape.answer found, host.Everywhere good value := by
  have text : host.Everywhere good (.str "") := everywhere_of_isSimple plain trivial
  have empty : host.Everywhere good (.list []) :=
    everywhere_list plain fun _ member => (List.not_mem_nil member).elim
  have single : ∀ value, found = some value → host.Everywhere good (.list [value]) := by
    intro value present
    refine everywhere_list plain fun item member => ?_
    obtain rfl := List.mem_singleton.1 member
    exact inside item present
  have several : ∀ content, found = some content →
      ∀ value ∈ Shape.list.answer (some content), host.Everywhere good value := by
    intro content present value answered
    cases content with
    | list items => exact inside value (present.trans answered)
    | bool | int | float | str | map | document | deferred | object =>
      cases answered
      exact single _ present
  intro value answered
  cases shape with
  | optional => exact inside value answered
  | required =>
    cases found with
    | none =>
      cases answered
      exact text
    | some => exact inside value answered
  | list =>
    cases found with
    | none =>
      cases answered
      exact empty
    | some content => exact several content rfl value answered
  | optionalList =>
    cases found with
    | none => cases answered
    | some content =>
      have same : Shape.optionalList.answer (some content) = Shape.list.answer (some content) := by
        cases content <;> rfl
      exact several content rfl value (same ▸ answered)

end Host

namespace Host

/-- The same value twice, from which something is true `Everywhere`. -/
def SameEverywhere (host : Host) (good : Value → Prop) (left right : Value) : Prop :=
  left = right ∧ host.Everywhere good left

/-- Whether a value is no object with a method that is given a frame (`MemberKind.contextMethod`).
-/
def IsUncontextual (host : Host) (value : Value) : Prop :=
  ∀ identity, value = .object identity →
    ∀ accessor ∈ host.schema.members (host.typeOf identity), accessor.kind ≠ .contextMethod

theorem isUncontextual_of_isPlain (host : Host) (value : Value) (plain : value.IsPlain) :
    host.IsUncontextual value := by
  rintro identity rfl
  cases plain

/-- Where no type declares a method that is given a frame every value is `IsUncontextual`. -/
theorem isUncontextual_of_flatten {host : Host}
    (undeclared : ∀ member, .member member ∈ host.schema.flatten →
      member.reading.kind ≠ .contextMethod) (value : Value) : host.IsUncontextual value := by
  rintro identity rfl accessor declared
  exact undeclared accessor.member (Schema.member_mem_flatten declared)

end Host

end Mustache
