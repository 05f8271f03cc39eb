import Mustache.Proofs.Scope.Agreement

/-!
# Resolving paths in wrapped data

A path names in wrapped data what it names in the plain data, and what it names is never deferred.
On both sides the steps come to an end; they remember the same members and answer with what
corresponds.
-/

namespace Mustache

open Resolution

section Members

variable {objects : Nat → Nat → Prop} {inner : Value → Value → Prop}
  {left right : Option Value}

/-- Of values with the `SameHead` a member with a list makes findings that correspond
(`Accessor.finding`). -/
theorem Accessor.finding_corresponds_iterable {accessor : Accessor}
    (iterable : accessor.isIterable = true)
    (wrap : ∀ {plain wrapped}, plain.SameHead objects inner wrapped → inner plain wrapped)
    (same : Option.Rel (Value.SameHead objects inner) left right) :
    Finding.Corresponds True inner (accessor.finding (accessor.member.shape.answer left))
      (accessor.finding (accessor.member.shape.answer right)) := by
  have lists : ∀ {leftItems rightItems}, List.Forall₂ inner leftItems rightItems →
      Finding.Corresponds True inner (accessor.finding (some (.list leftItems)))
        (accessor.finding (some (.list rightItems))) := by
    intro leftItems rightItems items
    cases items with
    | nil =>
      simp only [finding, iterable, if_true]
      exact .empty trivial
    | cons first rest => exact .found (wrap (.list (.cons first rest)))
  have nothing :
      Finding.Corresponds True inner (accessor.finding none) (accessor.finding none) := by
    simp only [finding, iterable, if_true]
    exact .empty trivial
  rw [Accessor.isIterable] at iterable
  cases shape : accessor.member.shape with
  | optional | required =>
    rw [shape] at iterable
    cases iterable
  | list =>
    cases same with
    | none => exact lists .nil
    | some heads =>
      cases heads with
      | list items => exact lists items
      | bool | int | float | str | document | map | object =>
        exact lists (.cons (wrap (by constructor <;> assumption)) .nil)
  | optionalList =>
    cases same with
    | none => exact nothing
    | some heads =>
      cases heads with
      | list items => exact lists items
      | bool | int | float | str | document | map | object =>
        exact lists (.cons (wrap (by constructor <;> assumption)) .nil)

end Members

section Paths

variable {plain wrapped : Host} {objects : Nat → Nat → Prop}
  (defers : plain.Defers wrapped objects)
  (resolvePlain resolveWrapped : String → Resolution Resolved) (originPlain originWrapped : Scope)

include defers

/-- A member of an object finds in wrapped data what it finds in plain data, by `Accessor.read`. -/
theorem Accessor.read_agree {identity other : Nat} (same : objects identity other)
    {accessor : Accessor} (declared : accessor ∈ plain.schema.members (plain.typeOf identity)) :
    Agree plain.schema False (fun left right => Finding.Corresponds True (wrapped.Wraps objects)
        (accessor.finding left) (accessor.finding right))
      (accessor.read resolvePlain plain originPlain identity)
      (accessor.read resolveWrapped wrapped originWrapped other) := by
  have answers : ∀ key,
      accessor.member.reading = .field key ∨ accessor.member.reading = .method key →
      Finding.Corresponds True (wrapped.Wraps objects)
        (accessor.finding (accessor.member.shape.answer
          (plain.fieldAt? identity accessor.route key)))
        (accessor.finding (accessor.member.shape.answer
          (wrapped.fieldAt? other accessor.route key))) := by
    intro key reading
    have found := defers.fields same accessor declared key reading
    cases iterable : accessor.isIterable with
    | false =>
      rw [iterable, if_neg Bool.false_ne_true] at found
      exact finding_corresponds_single iterable (fun content => .same (.str content)) found
    | true =>
      rw [iterable, if_pos rfl] at found
      exact finding_corresponds_iterable iterable .same found
  unfold Accessor.read
  simp only
  cases reading : accessor.member.reading with
  | field key => exact .pure (answers key (.inl reading))
  | method key => exact .pure (answers key (.inr reading))
  | contextMethod call =>
    refine absurd ?_ (defers.uncontextual same accessor declared)
    rw [Accessor.kind, reading, Reading.kind]

namespace Scope

/-- A name names in a value of wrapped data what it names in the plain value, by `findConcrete`. -/
theorem findConcrete_agree {value other : Value}
    (heads : value.SameHead objects (wrapped.Wraps objects) other) (name : String) :
    Agree plain.schema False (Finding.Corresponds True (wrapped.Wraps objects))
      (findConcrete resolvePlain plain originPlain value name)
      (findConcrete resolveWrapped wrapped originWrapped other name) := by
  cases heads with
  | bool | int | float | str => exact .pure .unknown
  | map entries => exact .pure (.ofOption (Value.SameName.lookup entries name))
  | list items =>
    refine .pure (.ofOption ?_)
    cases Path.index? name with
    | none => exact .none
    | some position => exact Value.getElem?_rel items position
  | document document =>
    refine .pure ?_
    unfold Document.find
    split
    · exact .unknown
    · exact .unknown
    · exact .found (.same (.ofDocument _))
  | object same =>
    simp only [findConcrete, defers.schema, defers.type same]
    refine (Agree.member plain.schema _ name).bind ?_
    rintro found _ ⟨rfl, declared⟩
    cases found with
    | none => exact .pure .unknown
    | some accessor =>
      exact (Accessor.read_agree defers _ _ _ _ same (declared accessor rfl)).bind
        fun _ _ findings => .pure findings

omit defers in
/-- A wrapped value settles by `Host.settle` to one with the `SameHead`. -/
theorem settle_results {value other : Value} (wraps : wrapped.Wraps objects value other) :
    Results False (Option.Rel (Value.SameHead objects (wrapped.Wraps objects)))
      (plain.settle value) (wrapped.settle other) := by
  obtain ⟨last, settles, heads⟩ := wraps.exists_settle
  rw [wraps.settle_plain, settles]
  exact .ok (.some heads)

omit resolvePlain resolveWrapped in
/-- A path names by `Scope.resolve` from a wrapped scope what it names from the plain scope, and
what it names is not deferred. -/
theorem resolve_agree {scope other : Scope}
    (same : scope.Corresponds (wrapped.Wraps objects) other) (path : String)
    (cache : AccessorCache) (sound : cache.Sound plain.schema) : ∃ left right after,
      scope.resolve plain path cache = (.ok left, after) ∧
      other.resolve wrapped path cache = (.ok right, after) ∧
      left.Corresponds True (Value.SameHead objects (wrapped.Wraps objects)) right ∧
      after.Sound plain.schema := by
  obtain ⟨innerPlain, plainEq⟩ := exists_resolve_eq plain scope
  obtain ⟨innerWrapped, wrappedEq⟩ := exists_resolve_eq wrapped other
  rw [plainEq, wrappedEq]
  obtain ⟨_, _, after, leftRun, rightRun, results, afterSound⟩ :=
    resolveUsing_agree settle_results
      (findConcrete_agree defers innerPlain innerWrapped scope other) same path cache sound
  cases results with
  | ok corresponds => exact ⟨_, _, after, leftRun, rightRun, corresponds, afterSound⟩
  | stalled possible => cases possible

end Scope

end Paths

end Mustache
