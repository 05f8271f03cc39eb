import Mustache.Proofs.Host.NativeDocument
import Mustache.Proofs.Scope.Everywhere

/-!
# Resolving paths in documents and in native data

A path names in native data what mirrors what it names in the document
(`Scope.resolve_agree_native`). Names that are bound beside the document may lead to objects, whose
members answer the same whatever frame asks for them, for none of them is a method that is given
the frame.
-/

namespace Mustache

open Resolution

namespace Document

/-- A part that `child?` finds in a plain document is plain. -/
theorem IsPlain.child {document child : Document} {name : String} (plain : document.IsPlain)
    (found : document.child? name = some child) : child.IsPlain := by
  cases plain with
  | bool | integer | string => cases found
  | array plain =>
    obtain ⟨position, _, member⟩ := Option.bind_eq_some_iff.1 found
    exact plain child (List.mem_of_getElem? member)
  | object plain => exact plain (name, child) (mem_of_lookup_eq_some found)

/-- What `Document.find` finds in a plain document is the part under the name. -/
theorem IsPlain.find_eq {document : Document} (plain : document.IsPlain) (name : String) :
    document.find name = .ofOption ((document.child? name).map Value.ofDocument) := by
  unfold find
  split
  · next missing =>
    rw [missing]
    rfl
  · next null => cases plain.child null
  · next child _ found =>
    rw [found]
    rfl

/-- What `Scope.findConcrete` finds in the `native` form of a document is the native form of the
part under the name. -/
theorem findConcrete_native (resolve : String → Resolution Resolved) (host : Host)
    (origin : Scope) (document : Document) (name : String) :
    Scope.findConcrete resolve host origin document.native name =
      pure (.ofOption ((document.child? name).map native)) := by
  cases document with
  | number value => cases value <;> rfl
  | array items =>
    rw [native, Scope.findConcrete, nativeItems_eq_map, child?, Option.map_bind]
    simp only [List.getElem?_map]
    rfl
  | object members => rw [native, Scope.findConcrete, lookup_nativeMembers, child?]
  | null | bool | string => rfl

end Document

/-- Frames of which the second holds natively what the first holds, and which bind the same names
to the same values. Names are bound only where `shared` says so, and to values from which no object
with a method that is given a frame can be got at. -/
structure Frame.Mirrors (host : Host) (shared : Prop) (left right : Frame) : Prop where
  /-- The host values mirror each other. -/
  hosts : Option.Rel (Value.Mirrors host shared) left.host right.host
  /-- The bound names and their values are the same. -/
  bindings : left.bindings = right.bindings
  /-- There are bound names only where there can be, and no bound value sees a frame. -/
  bound : ∀ entry ∈ left.bindings, shared ∧ host.Everywhere host.IsUncontextual entry.2

/-- Scopes of which the second holds natively what the first holds. -/
def Scope.Mirrors (host : Host) (shared : Prop) (left right : Scope) : Prop :=
  List.Forall₂ (Frame.Mirrors host shared) left.frames right.frames

section Frames

variable {host : Host} {shared : Prop}

/-- Frames that mirror each other (`Frame.Mirrors`) hold and bind values that do. -/
theorem Frame.Mirrors.corresponds {left right : Frame} (mirrors : left.Mirrors host shared right) :
    left.Corresponds (Value.Mirrors host shared) right := by
  refine ⟨mirrors.hosts, ?_⟩
  rw [← mirrors.bindings, List.forall₂_same]
  rintro ⟨name, value⟩ member
  obtain ⟨possible, uncontextual⟩ := mirrors.bound _ member
  exact ⟨.same possible ⟨rfl, uncontextual⟩⟩

namespace Scope.Mirrors

variable {left right : Scope} (mirrors : left.Mirrors host shared right)

include mirrors

theorem corresponds : left.Corresponds (Value.Mirrors host shared) right :=
  List.Forall₂.imp (fun _ _ => Frame.Mirrors.corresponds) mirrors

/-- Scopes that mirror each other have children (`Scope.child`) that do so if the children's host
values do. -/
theorem child {value other : Option Value}
    (hosts : Option.Rel (Value.Mirrors host shared) value other) :
    (left.child value).Mirrors host shared (right.child other) :=
  .cons ⟨hosts, rfl, fun _ bound => absurd bound List.not_mem_nil⟩ mirrors

/-- Scopes that mirror each other do so after `Scope.bind` has bound in both the same value, if that
sees no frame. -/
theorem bind (possible : shared) (name : String) {value : Value}
    (uncontextual : host.Everywhere host.IsUncontextual value) :
    (left.bind name value).Mirrors host shared (right.bind name value) := by
  obtain ⟨inner, outer⟩ := List.forall₂_cons.1 mirrors
  refine .cons ⟨inner.hosts, ?_, fun entry member => ?_⟩ outer
  · simp only [Scope.bind, Frame.bind, inner.bindings]
  · rcases List.mem_cons.1 member with rfl | kept
    · exact ⟨possible, uncontextual⟩
    · exact inner.bound entry (List.mem_of_mem_filter kept)

end Scope.Mirrors

end Frames

section Paths

variable {host : Host} {shared : Prop} {scope other : Scope}

/-- Values that mirror each other settle by `Host.settle` to values that do. -/
theorem Value.Mirrors.settle_results {left right : Value}
    (mirrors : left.Mirrors host shared right) :
    Results shared (Option.Rel (Value.Mirrors host shared)) (host.settle left)
      (host.settle right) := by
  cases mirrors with
  | document plain =>
    rw [Host.settle_of_isConcrete (Document.isConcrete_native _),
      Host.settle_of_isConcrete fun _ => Value.noConfusion]
    exact .ok (.some (.document plain))
  | str text =>
    rw [Host.settle_of_isConcrete fun _ => Value.noConfusion]
    exact .ok (.some (.str text))
  | bool value =>
    rw [Host.settle_of_isConcrete fun _ => Value.noConfusion]
    exact .ok (.some (.bool value))
  | same possible same =>
    refine (same.settle_results fun _ _ => possible).imp ?_
    rintro _ _ (same | _)
    · exact .some (.same possible same)
    · exact .none

namespace Scope

/-- A name is in native data, for `findConcrete` and on behalf of whatever frames, what mirrors what
it is in the document. -/
theorem findConcrete_agree_native {resolveLeft resolveRight : String → Resolution Resolved}
    {left right : Value} (mirrors : left.Mirrors host shared right) (name : String) :
    Agree host.schema shared (Finding.Corresponds shared (Value.Mirrors host shared))
      (findConcrete resolveLeft host scope left name)
      (findConcrete resolveRight host other right name) := by
  cases mirrors with
  | @document document plain =>
    rw [findConcrete, plain.find_eq, Document.findConcrete_native]
    refine .pure (.ofOption ?_)
    cases found : document.child? name with
    | none => exact .none
    | some child => exact .some (.ofDocument (plain.child found))
  | str | bool => exact .pure .unknown
  | same possible same =>
    refine ((findConcrete_uncontextual same name).imp ?_).agree
    rintro _ _ (same | _ | _ | _)
    · exact .found (.same possible same)
    · exact .empty possible
    · exact .absent
    · exact .unknown

/-- A path names by `Scope.resolve` from native frames what mirrors what it names from the frames of
the document. -/
theorem resolve_agree_native (mirrors : scope.Mirrors host shared other) (path : String) :
    Agree host.schema shared (Resolved.Corresponds shared (Value.Mirrors host shared))
      (scope.resolve host path) (other.resolve host path) := by
  obtain ⟨innerScope, scopeEq⟩ := exists_resolve_eq host scope
  obtain ⟨innerOther, otherEq⟩ := exists_resolve_eq host other
  rw [scopeEq, otherEq]
  exact resolveUsing_agree Value.Mirrors.settle_results findConcrete_agree_native
    mirrors.corresponds path

end Scope

end Paths

end Mustache
