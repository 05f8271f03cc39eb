import Mustache.Proofs.Scope.Everywhere

/-!
# Names that are mentioned

Two maps that agree on some names are told apart by looking up another one, and by nothing else:
they have the same text, and as far as blocks go each is one value. So paths of these names name the
same from two scopes that hold the two maps, or else the maps themselves:
`Scope.resolve_agree_sameOn`.
-/

namespace Mustache

/-- The same value twice, or two maps that agree on some names; no object that can be got at has a
method that is given a frame. -/
inductive Host.SameOn (host : Host) (named : String → Prop) : Value → Value → Prop where
  /-- The same value twice. -/
  | same {left right : Value} (same : host.SameEverywhere host.IsUncontextual left right) :
      SameOn host named left right
  /-- Maps with the same values under some names. -/
  | maps {left right : List (String × Value)}
      (agree : ∀ name, named name → left.lookup name = right.lookup name)
      (everywhere : host.Everywhere host.IsUncontextual (.map left)) :
      SameOn host named (.map left) (.map right)

/-- A map has settled. -/
theorem Host.settle_map {host : Host} (entries : List (String × Value)) :
    host.settle (.map entries) = .ok (some (.map entries)) :=
  settle_of_isConcrete fun _ => nofun

namespace Host.SameOn

open Resolution

variable {host : Host} {named : String → Prop} {left right : Value}

/-- Values that are the same as far as some names go (`SameOn`) settle to such values. -/
theorem settle_results (same : host.SameOn named left right) :
    Results True (Option.Rel (host.SameOn named)) (host.settle left) (host.settle right) := by
  cases same with
  | same same =>
    refine (same.settle_results fun _ _ => trivial).imp ?_
    rintro _ _ (same | _)
    · exact .some (.same same)
    · exact .none
  | maps agree everywhere =>
    rw [settle_map, settle_map]
    exact .ok (.some (.maps agree everywhere))

/-- Values that are the same as far as some names go (`SameOn`) have the same `text`. -/
theorem text_eq (same : host.SameOn named left right) : host.text left = host.text right := by
  cases same with
  | same same => rw [same.1]
  | maps =>
    rw [Host.text, Host.text, settle_map, settle_map]
    rfl

/-- One of some names names the same, by `findConcrete`, in values that are the same as far as these
names go (`SameOn`). -/
theorem findConcrete_agree {resolveLeft resolveRight : String → Resolution Resolved}
    {scope other : Scope} (same : host.SameOn named left right) {name : String}
    (mentioned : named name) :
    Agree host.schema True (Finding.Corresponds True (host.SameOn named))
      (Scope.findConcrete resolveLeft host scope left name)
      (Scope.findConcrete resolveRight host other right name) := by
  have weaken : ∀ first second, Finding.Corresponds True
      (host.SameEverywhere host.IsUncontextual) first second →
      Finding.Corresponds True (host.SameOn named) first second := by
    rintro _ _ (same | possible | _ | _)
    · exact .found (.same same)
    · exact .empty possible
    · exact .absent
    · exact .unknown
  cases same with
  | same same => exact ((Scope.findConcrete_uncontextual same name).imp weaken).agree
  | @maps entries others agree everywhere =>
    refine .pure ?_
    rw [← agree name mentioned]
    cases found : entries.lookup name with
    | none => exact .unknown
    | some value =>
      have holds : host.Holds (.map entries) value := .entry (mem_of_lookup_eq_some found)
      exact .found (.same ⟨rfl, everywhere.of_holds holds⟩)

end Host.SameOn

/-- A path of some names names the same by `Scope.resolve`, as far as these names go, from scopes
whose values are the same as far as they go (`SameOn`). -/
theorem Scope.resolve_agree_sameOn {host : Host} {named : String → Prop} {scope other : Scope}
    (same : scope.Corresponds (host.SameOn named) other) {path : String}
    (among : path ≠ Path.implicit → ∀ name ∈ Path.components path, named name) :
    Resolution.Agree host.schema True (Resolved.Corresponds True (host.SameOn named))
      (scope.resolve host path) (other.resolve host path) := by
  obtain ⟨innerScope, scopeEq⟩ := exists_resolve_eq host scope
  obtain ⟨innerOther, otherEq⟩ := exists_resolve_eq host other
  rw [scopeEq, otherEq]
  exact (resolveUsing_agreeUnless Host.SameOn.settle_results
    (fun same _ mentioned => (same.findConcrete_agree mentioned).unless) same among).agree

end Mustache
