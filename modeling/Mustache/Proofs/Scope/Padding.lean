import Mustache.Proofs.Scope.Everywhere

/-!
# Frames without content

A frame that has no host value and binds no name is passed over when a path is resolved, wherever it
stands among the frames of a scope. Where objects have no methods that are given a frame, nobody
else can notice it: `Scope.Padded.resolve_agree`.
-/

namespace Mustache

/-- Some frames, and the same frames with others among them that have no content. -/
inductive Frame.Padded : List Frame → List Frame → Prop where
  /-- Nothing is nothing. -/
  | nil : Padded [] []
  /-- A frame stays. -/
  | keep (frame : Frame) {frames others : List Frame} (rest : Padded frames others) :
      Padded (frame :: frames) (frame :: others)
  /-- A frame without a host value and without bindings is put in. -/
  | insert {frames others : List Frame} (rest : Padded frames others) :
      Padded frames ({} :: others)

/-- A scope, and one that has more frames, which have no content. -/
def Scope.Padded (scope other : Scope) : Prop :=
  Frame.Padded scope.frames other.frames

/-- Frames are `Padded` with nothing. -/
theorem Frame.Padded.refl (frames : List Frame) : Padded frames frames := by
  induction frames with
  | nil => exact .nil
  | cons frame _ inductionHypothesis => exact .keep frame inductionHypothesis

namespace Scope

open Resolution

variable {host : Host} {scope other : Scope}

/-- Children of a scope and of the `Padded` one are padded too. -/
theorem Padded.child (padded : scope.Padded other) (content : Option Value) :
    (scope.child content).Padded (other.child content) :=
  .keep { host := content } padded

/-- A `child` without a host value is padding. -/
theorem padded_child_none (scope : Scope) : scope.Padded (scope.child none) :=
  .insert (.refl scope.frames)

/-- The innermost host value (`implicitValue?`) of `Padded` frames is that of the frames. -/
theorem Padded.implicitValue?_eq (padded : scope.Padded other) :
    other.implicitValue? = scope.implicitValue? := by
  have innermost : ∀ {frames others : List Frame}, Frame.Padded frames others →
      others.findSome? Frame.host = frames.findSome? Frame.host := by
    intro frames others padded
    induction padded with
    | nil => rfl
    | keep frame _ inductionHypothesis =>
      rw [List.findSome?_cons, List.findSome?_cons, inductionHypothesis]
    | insert _ inductionHypothesis => exact inductionHypothesis
  exact innermost padded

/-- Names name the same by `resolveNames` from `Padded` frames, on behalf of the same frame. -/
theorem resolveNames_padded {resolve : String → Resolution Resolved} {origin : Scope}
    {first : String} {rest : List String} {frames others : List Frame}
    (padded : Frame.Padded frames others) :
    resolveNames resolve host origin first rest others =
      resolveNames resolve host origin first rest frames := by
  induction padded with
  | nil => rfl
  | keep frame _ inductionHypothesis => rw [resolveNames, resolveNames, inductionHypothesis]
  | insert _ inductionHypothesis =>
    have nothing : findInFrame resolve host origin {} first = pure .unknown := rfl
    rw [resolveNames, nothing, pure_bind, inductionHypothesis]

/-- From a `Padded` scope `resolve` names the same, if no object has a method that is given a frame
(`IsUncontextual`). -/
theorem Padded.resolve_agree (padded : scope.Padded other)
    (uncontextual : scope.Everywhere host host.IsUncontextual) (path : String) :
    Agree host.schema True (Resolved.Corresponds True (host.SameEverywhere host.IsUncontextual))
      (scope.resolve host path) (other.resolve host path) := by
  obtain ⟨innerScope, scopeEq⟩ := exists_resolve_eq host scope
  obtain ⟨innerOther, otherEq⟩ := exists_resolve_eq host other
  have settles : ∀ {left right}, host.SameEverywhere host.IsUncontextual left right →
      Results True (Option.Rel (host.SameEverywhere host.IsUncontextual)) (host.settle left)
        (host.settle right) :=
    fun same => same.settle_results fun _ _ => trivial
  have corresponds := uncontextual.corresponds
  rw [scopeEq, otherEq]
  unfold resolveUsing
  split
  · rw [padded.implicitValue?_eq]
    have innermost := implicitValue?_rel corresponds
    revert innermost
    generalize scope.implicitValue? = value
    rintro (⟨_, everywhere⟩ | _)
    · exact settled_agree (settles ⟨rfl, everywhere⟩)
    · exact .pure .absent
  · split
    · exact .pure .absent
    · next first rest _ =>
      rw [resolveNames_padded padded]
      exact (resolveNames_agreeUnless settles
        (fun same name _ => findConcrete_uncontextual same name) (fun _ _ => trivial)
        corresponds).agree

end Scope

end Mustache
