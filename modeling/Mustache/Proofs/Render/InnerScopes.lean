import Mustache.Proofs.Scope.NestedMethods
import Mustache.Render.Execute

/-!
# The scopes inside of blocks

What stands inside of blocks is run in scopes that the blocks make, each with one more frame around
something that a path names. What is true everywhere in the scope of a program is true everywhere in
these: `Scope.Inside.everywhere`. If everything in the scope comes that is waited for, and all
methods answer that are given a frame, every path names something from each of them:
`Scope.Inside.exists_resolve`.
-/

namespace Mustache

open Resolution

/-- What a block makes frames of (`frameHosts`) can be got at from what its path names. -/
theorem Resolved.everywhere_frameHosts {host : Host} {good : Value → Prop}
    (plain : ∀ value : Value, value.IsPlain → good value) {resolved : Resolved}
    (inside : ∀ value ∈ resolved.value?, host.Everywhere good value) :
    ∀ content ∈ resolved.frameHosts, ∀ value ∈ content, host.Everywhere good value := by
  cases resolved with
  | empty | absent => exact fun _ member => (List.not_mem_nil member).elim
  | value value =>
    have everywhere : host.Everywhere good value := inside value rfl
    have alone : ∀ content ∈ [some value], ∀ part ∈ content, host.Everywhere good part := by
      intro content member part present
      obtain rfl := List.mem_singleton.1 member
      cases present
      exact everywhere
    have unnamed : ∀ content ∈ [(none : Option Value)], ∀ part ∈ content,
        host.Everywhere good part := by
      intro content member part present
      obtain rfl := List.mem_singleton.1 member
      cases present
    cases value with
    | bool truth =>
      cases truth with
      | false => exact fun _ member => (List.not_mem_nil member).elim
      | true => exact unnamed
    | list items =>
      intro content member part present
      obtain ⟨item, itemMember, rfl⟩ := List.mem_map.1 member
      cases present
      exact everywhere.of_holds (.item itemMember)
    | document document =>
      cases document with
      | null => exact fun _ member => (List.not_mem_nil member).elim
      | bool truth =>
        cases truth with
        | false => exact fun _ member => (List.not_mem_nil member).elim
        | true => exact unnamed
      | array items =>
        intro content member part present
        obtain ⟨item, _, rfl⟩ := List.mem_map.1 member
        cases present
        exact Host.everywhere_ofDocument plain item
      | number | string | object => exact alone
    | int | float | str | map | deferred | object => exact alone

/-- Blocks over the same value have the same frames (`frameHosts`), and what is true everywhere from
it is so from what these hold. -/
theorem Resolved.Corresponds.frameHosts_same {host : Host} {good : Value → Prop}
    (plain : ∀ value : Value, value.IsPlain → good value) {left right : Resolved}
    (named : left.Corresponds True (host.SameEverywhere good) right) :
    List.Forall₂ (fun first second => first = second ∧
        ∀ value ∈ first, host.Everywhere good value) left.frameHosts right.frameHosts := by
  obtain rfl := named.eq_of_same
  have inside : ∀ value ∈ left.value?, host.Everywhere good value := by
    rintro value present
    rcases named with ⟨_, everywhere⟩ | _ | _ <;> cases present
    exact everywhere
  exact List.forall₂_same.2 fun content member =>
    ⟨rfl, everywhere_frameHosts plain inside content member⟩

namespace Scope

variable {host : Host} {scope inner : Scope} {blocks : List (BlockKind × String)}

/-- In a scope something may be run that stands inside of blocks in a program, innermost block
first, when the program is run in another scope. -/
inductive Inside (host : Host) (scope : Scope) : List (BlockKind × String) → Scope → Prop where
  /-- Outside of blocks this is the scope of the program. -/
  | here : Inside host scope [] scope
  /-- A block over what a path names makes a child for each frame. -/
  | iterable {blocks : List (BlockKind × String)} {inner : Scope} {path : String}
      {resolved : Resolved} {content : Option Value} (outer : Inside host scope blocks inner)
      (named : (inner.resolve host path).answer = .ok resolved)
      (member : content ∈ resolved.frameHosts) :
      Inside host scope ((.iterable, path) :: blocks) (inner.child content)
  /-- An inverted block is run in the same scope if there is no frame. -/
  | inverted {blocks : List (BlockKind × String)} {inner : Scope} {path : String}
      {resolved : Resolved} (outer : Inside host scope blocks inner)
      (named : (inner.resolve host path).answer = .ok resolved)
      (nothing : resolved.frameHosts = []) :
      Inside host scope ((.inverted, path) :: blocks) inner

/-- What a path names can be got at from its scope. -/
theorem Everywhere.resolved {good : Value → Prop}
    (everywhere : scope.Everywhere host good)
    (plain : ∀ value : Value, value.IsPlain → good value) {path : String} {found : Resolved}
    (named : (scope.resolve host path).answer = .ok found) :
    ∀ value ∈ found.value?, host.Everywhere good value := by
  obtain ⟨_, _, _, leftRun, _, results, _⟩ :=
    resolve_sameEverywhere plain everywhere path {} (AccessorCache.sound_empty _)
  rw [answer, leftRun] at named
  have nothing : ∀ value ∈ (none : Option Value), host.Everywhere good value :=
    fun value present => absurd present (Option.not_mem_none value)
  rcases results with ⟨⟨_, inside⟩ | _ | _⟩ | _ <;> cases named
  · rintro _ ⟨⟩
    exact inside
  · exact nothing
  · exact nothing

/-- What is true `Everywhere` in the scope of a program is so in the scopes inside of its blocks. -/
theorem Inside.everywhere {good : Value → Prop} (inside : Inside host scope blocks inner)
    (plain : ∀ value : Value, value.IsPlain → good value)
    (everywhere : scope.Everywhere host good) : inner.Everywhere host good := by
  induction inside with
  | here => exact everywhere
  | iterable _ named member inductionHypothesis =>
    exact inductionHypothesis.child
      (Resolved.everywhere_frameHosts plain (inductionHypothesis.resolved plain named) _ member)
  | inverted _ _ _ inductionHypothesis => exact inductionHypothesis

/-- A value is complete if the way from it through slots ends, and if, should it be an object, its
methods that are given a frame answer in whatever scope inside of blocks they are asked. -/
structure Completes (host : Host) (scope : Scope) (value : Value) : Prop where
  /-- The way through slots ends. -/
  ends : ∃ count, host.Ends count value
  /-- Methods that are given a frame answer. -/
  answers : ∀ identity, value = .object identity →
    ∀ accessor ∈ host.schema.members (host.typeOf identity), accessor.kind = .contextMethod →
      ∀ blocks inner, Inside host scope blocks inner →
        ∃ found, (accessor.read (inner.resolve host) host inner identity).answer = .ok found

theorem completes_of_isPlain (value : Value) (plain : value.IsPlain) :
    Completes host scope value := by
  refine ⟨⟨0, .arrived ?_⟩, ?_⟩
  · rintro slot rfl
    cases plain
  · rintro identity rfl
    cases plain

/-- A member of a complete object answers in every scope inside of blocks. -/
theorem Inside.exists_read (inside : Inside host scope blocks inner) {identity : Nat}
    (complete : Completes host scope (.object identity)) {accessor : Accessor}
    (declared : accessor ∈ host.schema.members (host.typeOf identity)) :
    ∃ found, (accessor.read (inner.resolve host) host inner identity).answer = .ok found := by
  cases reading : accessor.member.reading with
  | contextMethod call =>
    refine complete.answers identity rfl accessor declared ?_ blocks inner inside
    rw [Accessor.kind, reading, Reading.kind]
  | field | method =>
    unfold Accessor.read
    rw [reading]
    exact ⟨_, rfl⟩

/-- Where methods resolve paths as they are resolved from a scope `Inside` of blocks, no path stalls
in complete data. -/
theorem Inside.resolveUsing_agree (inside : Inside host scope blocks inner)
    (complete : scope.Everywhere host (Completes host scope)) (path : String) :
    Agree host.schema False
      (Resolved.Corresponds True (host.SameEverywhere (Completes host scope)))
      (resolveUsing (inner.resolve host) host inner path)
      (resolveUsing (inner.resolve host) host inner path) := by
  have everywhere := inside.everywhere completes_of_isPlain complete
  refine Scope.resolveUsing_agree (fun same => ?_) (fun same name => ?_) everywhere.corresponds path
  · refine same.settle_results fun stall stuck => ?_
    obtain ⟨count, ends⟩ := same.2.here.ends
    obtain ⟨settled, settles⟩ := Host.settle_of_ends ends
    rw [settles] at stuck
    cases stuck
  · refine (findConcrete_sameEverywhere completes_of_isPlain same ?_ name).agree
    rintro identity rfl accessor declared
    obtain ⟨found, answered⟩ := inside.exists_read same.2.here declared
    have agrees : Agree host.schema True (host.SameFound (Completes host scope))
        (accessor.read (inner.resolve host) host inner identity)
        (accessor.read (inner.resolve host) host inner identity) :=
      (accessor.read_sameEverywhere completes_of_isPlain (fun _ _ _ _ => trivial) everywhere same.2
        fun path _ => (resolve_sameEverywhere completes_of_isPlain everywhere path).unless).agree
    exact (agrees.of_answer
      (accessor.read_looksUp (resolve_looksUp host inner) inner identity) answered).unless

/-- From a scope `Inside` of blocks every path comes to name something in complete data. -/
theorem Inside.exists_resolve (inside : Inside host scope blocks inner)
    (complete : scope.Everywhere host (Completes host scope)) (path : String) :
    ∃ resolved, (inner.resolve host path).answer = .ok resolved := by
  obtain ⟨first, _, after, leftRun, _, results, _⟩ :=
    inside.resolveUsing_agree complete path {} (AccessorCache.sound_empty _)
  -- Methods themselves resolve paths one step less deep than this, which makes no difference.
  cases results with
  | ok => exact ⟨_, (resolve_extends path).answer_eq (congrArg Prod.fst leftRun)⟩
  | stalled possible => cases possible

/-- What a path names in complete data has a `text`. -/
theorem Completes.exists_text {value : Value} (complete : Completes host scope value) :
    ∃ text, host.text value = .ok text := by
  obtain ⟨count, ends⟩ := complete.ends
  obtain ⟨settled, settles⟩ := Host.settle_of_ends ends
  unfold Host.text
  rw [settles]
  cases settled with
  | none => exact ⟨_, rfl⟩
  | some => exact ⟨_, rfl⟩

end Scope

end Mustache
