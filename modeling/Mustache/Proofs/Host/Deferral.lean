import Mustache.Proofs.Host.Settling

/-!
# Data with completed deferred values

`Host.Wraps` says how data of one host is obtained from plain data: any value in it may be put
behind filled slots, any number of times. The hosts may know their objects by different numbers;
`Host.Defers` says that the objects which stand for each other have the same type and text and
members that are wrapped in their turn. Whatever was put behind slots, a value settles to one
with the same head and the same text.
-/

namespace Mustache

/-- Two named values with the same name. -/
inductive Value.SameName (inner : Value → Value → Prop) : String × Value → String × Value → Prop
  /-- The values may differ as `inner` says. -/
  | intro {name : String} {left right : Value} (values : inner left right) :
      SameName inner (name, left) (name, right)

/-- Two values that are not deferred and differ only in what they hold, as `inner` says, and in
the numbers of objects, as `objects` says. -/
inductive Value.SameHead (objects : Nat → Nat → Prop) (inner : Value → Value → Prop) :
    Value → Value → Prop
  | bool (value : Bool) : SameHead objects inner (.bool value) (.bool value)
  | int (value : Int64) : SameHead objects inner (.int value) (.int value)
  | float (value : Binary64) : SameHead objects inner (.float value) (.float value)
  | str (text : String) : SameHead objects inner (.str text) (.str text)
  | document (document : Document) : SameHead objects inner (.document document) (.document document)
  | list {left right : List Value} (items : List.Forall₂ inner left right) :
      SameHead objects inner (.list left) (.list right)
  | map {left right : List (String × Value)}
      (entries : List.Forall₂ (SameName inner) left right) :
      SameHead objects inner (.map left) (.map right)
  | object {left right : Nat} (same : objects left right) :
      SameHead objects inner (.object left) (.object right)

/-- A value of a host that is obtained from a plain one by putting it, or values that it holds at
any depth, behind filled slots (`Leads`). -/
inductive Host.Wraps (host : Host) (objects : Nat → Nat → Prop) : Value → Value → Prop
  /-- The value itself is not put behind a slot. -/
  | same {plain wrapped : Value} (heads : plain.SameHead objects (Wraps host objects) wrapped) :
      Wraps host objects plain wrapped
  /-- The value is put behind one more slot. -/
  | deferred {plain next : Value} {slot : Nat} (filled : host.slot slot = .ready next)
      (inner : Wraps host objects plain next) : Wraps host objects plain (.deferred slot)

/-- Two hosts of which the second knows the data of the first with values put behind slots, and
in which the objects that stand for each other have no methods that see a frame. What a member
with a list answers is a list, not a deferred value; its elements may be deferred. -/
structure Host.Defers (plain wrapped : Host) (objects : Nat → Nat → Prop) : Prop where
  /-- The types are the same. -/
  schema : wrapped.schema = plain.schema
  /-- Objects that stand for each other have the same type. -/
  type : ∀ {left right}, objects left right → wrapped.typeOf right = plain.typeOf left
  /-- Objects that stand for each other have the same text. -/
  text : ∀ {left right}, objects left right →
    wrapped.concreteText (.object right) = plain.concreteText (.object left)
  /-- No member of such an object is given a frame. -/
  uncontextual : ∀ {left right}, objects left right →
    ∀ accessor ∈ plain.schema.members (plain.typeOf left), accessor.kind ≠ .contextMethod
  /-- What a member finds is wrapped. -/
  fields : ∀ {left right}, objects left right →
    ∀ accessor ∈ plain.schema.members (plain.typeOf left), ∀ key,
      accessor.member.reading = .field key ∨ accessor.member.reading = .method key →
      Option.Rel (if accessor.isIterable then Value.SameHead objects (wrapped.Wraps objects)
          else wrapped.Wraps objects)
        (plain.fieldAt? left accessor.route key) (wrapped.fieldAt? right accessor.route key)

namespace Value

variable {objects : Nat → Nat → Prop} {inner : Value → Value → Prop} {left right : Value}

/-- The first of two values with the same head is not deferred. -/
theorem SameHead.isConcrete_left (heads : left.SameHead objects inner right) : left.IsConcrete := by
  cases heads <;> exact fun _ => Value.noConfusion

/-- The second of two values with the `SameHead` is not deferred. -/
theorem SameHead.isConcrete_right (heads : left.SameHead objects inner right) :
    right.IsConcrete := by
  cases heads <;> exact fun _ => Value.noConfusion

/-- The value of a document has the `SameHead` as itself. -/
theorem SameHead.ofDocument (document : Document) :
    (Value.ofDocument document).SameHead objects inner (Value.ofDocument document) := by
  cases document with
  | string text => exact .str text
  | bool value => exact .bool value
  | null | number | array | object => exact .document _

/-- Under one name there are values of both or of none of two lists with the same names
(`SameName`). -/
theorem SameName.lookup {leftEntries rightEntries : List (String × Value)}
    (entries : List.Forall₂ (SameName inner) leftEntries rightEntries) (name : String) :
    Option.Rel inner (leftEntries.lookup name) (rightEntries.lookup name) := by
  induction entries with
  | nil => exact .none
  | cons first _ inductionHypothesis =>
    obtain ⟨values⟩ := first
    rw [List.lookup_cons, List.lookup_cons]
    split
    · exact .some values
    · exact inductionHypothesis

/-- At one position there are values of both or of none of two lists. -/
theorem getElem?_rel {leftItems rightItems : List Value}
    (items : List.Forall₂ inner leftItems rightItems) (position : Nat) :
    Option.Rel inner leftItems[position]? rightItems[position]? := by
  induction items generalizing position with
  | nil => exact .none
  | cons first _ inductionHypothesis =>
    cases position with
    | zero => exact .some first
    | succ position => exact inductionHypothesis position

end Value

namespace Host

variable {plain wrapped : Host} {objects : Nat → Nat → Prop}

/-- A wrapped value leads to one with the `SameHead`. -/
theorem Wraps.exists_leads : ∀ {value other : Value}, wrapped.Wraps objects value other →
    ∃ count last, wrapped.Leads count other last ∧
      value.SameHead objects (wrapped.Wraps objects) last
  | _, other, .same heads => ⟨0, other, .arrived heads.isConcrete_right, heads⟩
  | _, _, .deferred filled inner =>
    let ⟨count, last, leads, heads⟩ := inner.exists_leads
    ⟨count + 1, last, .waited filled leads, heads⟩

/-- A wrapped value settles by `Host.settle` to one with the `SameHead`. -/
theorem Wraps.exists_settle {value other : Value} (wraps : wrapped.Wraps objects value other) :
    ∃ last, wrapped.settle other = .ok (some last) ∧
      value.SameHead objects (wrapped.Wraps objects) last := by
  obtain ⟨_, last, leads, heads⟩ := wraps.exists_leads
  exact ⟨last, settle_of_leads leads, heads⟩

/-- A plain value, one that is wrapped (`Wraps`), has settled. -/
theorem Wraps.settle_plain {value other : Value} (wraps : wrapped.Wraps objects value other) :
    plain.settle value = .ok (some value) := by
  obtain ⟨_, _, _, heads⟩ := wraps.exists_leads
  exact settle_of_isConcrete heads.isConcrete_left

/-- Values with the `SameHead` have the same `concreteText`. -/
theorem Defers.concreteText_eq (defers : plain.Defers wrapped objects) {value other : Value}
    (heads : value.SameHead objects (wrapped.Wraps objects) other) :
    wrapped.concreteText other = plain.concreteText value := by
  cases heads with
  | object same => exact defers.text same
  | bool | int | float | str | document | list | map => rfl

/-- Wrapping a value does not change its `text`. -/
theorem Defers.text_eq (defers : plain.Defers wrapped objects) {value other : Value}
    (wraps : wrapped.Wraps objects value other) : wrapped.text other = plain.text value := by
  obtain ⟨last, settles, heads⟩ := wraps.exists_settle
  rw [Host.text, settles, Host.text, wraps.settle_plain]
  exact congrArg Except.ok (defers.concreteText_eq heads)

end Host

end Mustache
