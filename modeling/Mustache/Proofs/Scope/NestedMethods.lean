import Mustache.Proofs.Scope.Everywhere
import Mathlib.Data.Finset.Card
import Mathlib.Order.Monotone.Basic

/-!
# Methods that resolve paths

A method may resolve a path, on the way to which another method may resolve one, and so on. With one
more such step inside each other a path names what it named before, if it came to name anything,
and if no further path of a method gets to name something by one more step then none ever will.
There are only finitely many such paths, so a number of steps is enough that depends on the types
alone: `Scope.resolve_extends` says that resolving is a solution of its own equation.
-/

namespace Mustache

open Resolution

namespace Resolution

/-- From every `Sound` cache a step never comes to its end, or does just what another one does. -/
def Extends (schema : Schema) (left right : Resolution Resolved) : Prop :=
  AgreeUnless True schema True Eq left right

variable {schema : Schema} {left right : Resolution Resolved} {keys : List (Nat × String)}

/-- What a step answers that comes to its end is the answer of the step that `Extends` it. -/
theorem Extends.answer_eq (forward : left.Extends schema right) {resolved : Resolved}
    (answered : left.answer = .ok resolved) : right.answer = .ok resolved := by
  rw [answer] at answered ⊢
  obtain ⟨_, stall, stuck⟩ | ⟨_, _, after, leftRun, rightRun, results, _⟩ :=
    forward {} (AccessorCache.sound_empty schema)
  · rw [answered] at stuck
    cases stuck
  · rw [leftRun] at answered
    rw [rightRun]
    cases results with
    | ok same => exact (congrArg Except.ok same).symm.trans answered
    | stalled => cases answered

/-- Of two steps that come to their ends from one cache if they do from another the second is
extended by the first, if the first `Extends` the second and comes to its end where the second does.
-/
theorem Extends.symm (forward : left.Extends schema right) {others : List (Nat × String)}
    (leftLooksUp : left.LooksUp schema keys) (rightLooksUp : right.LooksUp schema others)
    (ends : ∀ resolved, right.answer = .ok resolved → ∃ other, left.answer = .ok other) :
    right.Extends schema left := by
  intro cache sound
  cases answered : right.answer with
  | error stall => exact .inl ⟨trivial, stall, by rw [rightLooksUp cache sound, answered]⟩
  | ok resolved =>
    obtain ⟨other, leftAnswered⟩ := ends resolved answered
    obtain ⟨_, stall, stuck⟩ | ⟨first, second, after, leftRun, rightRun, results, afterSound⟩ :=
      forward cache sound
    · rw [leftLooksUp cache sound, leftAnswered] at stuck
      cases stuck
    · refine .inr ⟨second, first, after, rightRun, leftRun, ?_, afterSound⟩
      cases results with
      | ok same => exact .ok same.symm
      | stalled possible stall => exact .stalled possible stall

/-- Steps that `Agree` do not stall if the first one answers. -/
theorem Agree.of_answer {α β : Type} {answers : α → β → Prop}
    {left : Resolution α} {right : Resolution β} {value : α}
    (steps : Agree schema True answers left right) (looksUp : left.LooksUp schema keys)
    (ended : left.answer = .ok value) : Agree schema False answers left right := by
  intro cache sound
  obtain ⟨first, second, after, leftRun, rightRun, results, afterSound⟩ := steps cache sound
  refine ⟨first, second, after, leftRun, rightRun, ?_, afterSound⟩
  rw [looksUp cache sound, ended] at leftRun
  cases results with
  | ok same => exact .ok same
  | stalled => cases leftRun

end Resolution

section Answers

variable {host : Host}

/-- What corresponds in having the same values (`SameEverywhere`) is the same. -/
theorem Resolved.Corresponds.eq_of_same {good : Value → Prop} {left right : Resolved}
    (same : left.Corresponds True (host.SameEverywhere good) right) : left = right := by
  rcases same with ⟨rfl, _⟩ | _ | _ <;> rfl

/-- What a path names corresponds to itself (`SameEverywhere`). -/
theorem Resolved.corresponds_self (resolved : Resolved) :
    resolved.Corresponds True (host.SameEverywhere fun _ => True) resolved := by
  cases resolved with
  | value value => exact .value ⟨rfl, fun _ _ => trivial⟩
  | empty => exact .empty trivial
  | absent => exact .absent

end Answers

namespace Scope

variable {host : Host} {scope : Scope}

/-- To extend how methods resolve paths `Extends` what `resolveUsing` names. -/
theorem resolveUsing_extends {first second : String → Resolution Resolved}
    (inner : ∀ path ∈ host.schema.resolvedPaths, (first path).Extends host.schema (second path))
    (path : String) :
    (resolveUsing first host scope path).Extends host.schema
      (resolveUsing second host scope path) := by
  have everywhere : scope.Everywhere host fun _ => True :=
    everywhere_of_forall (fun _ => trivial) host scope
  refine (resolveUsing_sameEverywhere (fun _ _ => trivial) (fun _ _ _ _ => trivial) everywhere ?_
    path).imp fun _ _ same => same.eq_of_same
  refine fun path declared => (inner path declared).imp ?_
  rintro resolved _ rfl
  exact resolved.corresponds_self

/-- What a path names, where methods resolve paths fewer than `count` deep inside each other. -/
def resolveBelow (host : Host) (scope : Scope) : Nat → String → Resolution Resolved
  | 0, _ => Resolution.stalled .circular
  | count + 1, path => resolveUsing (resolveBelow host scope count) host scope path

theorem resolveWithin_eq_resolveBelow (count : Nat) :
    scope.resolveWithin host count = scope.resolveBelow host (count + 1) := by
  induction count with
  | zero => exact resolveWithin_zero host scope
  | succ count inductionHypothesis =>
    rw [resolveWithin_succ, inductionHypothesis]
    rfl

/-- With one more step inside each other paths name by `resolveBelow` what they named before. -/
theorem resolveBelow_extends (count : Nat) (path : String) :
    (scope.resolveBelow host count path).Extends host.schema
      (scope.resolveBelow host (count + 1) path) := by
  induction count generalizing path with
  | zero => exact .stalled trivial _
  | succ count inductionHypothesis =>
    exact resolveUsing_extends (fun path _ => inductionHypothesis path) path

theorem exists_resolveBelow_looksUp (host : Host) (scope : Scope) (count : Nat) (path : String) :
    ∃ keys, (scope.resolveBelow host count path).LooksUp host.schema keys := by
  cases count with
  | zero => exact ⟨[], .stalled _⟩
  | succ count =>
    rw [← resolveWithin_eq_resolveBelow]
    exact ⟨_, resolveWithin_looksUp host scope count path⟩

open Classical in
/-- The paths of methods that come to name something, where methods resolve paths fewer than `count`
deep inside each other. -/
noncomputable def answered (host : Host) (scope : Scope) (count : Nat) : Finset String :=
  host.schema.resolvedPaths.toFinset.filter fun path =>
    ∃ resolved, (scope.resolveBelow host count path).answer = .ok resolved

theorem mem_answered {count : Nat} {path : String} :
    path ∈ scope.answered host count ↔ path ∈ host.schema.resolvedPaths ∧
      ∃ resolved, (scope.resolveBelow host count path).answer = .ok resolved := by
  simp only [answered, Finset.mem_filter, List.mem_toFinset]

theorem answered_subset (count : Nat) :
    scope.answered host count ⊆ scope.answered host (count + 1) := by
  intro path member
  obtain ⟨declared, resolved, ended⟩ := mem_answered.1 member
  exact mem_answered.2 ⟨declared, resolved, (resolveBelow_extends count path).answer_eq ended⟩

/-- If one more step does not make a further path of a method name something (`answered`), it
extends nothing. -/
theorem extends_resolveBelow_of_answered_eq {count : Nat}
    (stable : scope.answered host count = scope.answered host (count + 1)) (path : String) :
    (scope.resolveBelow host (count + 2) path).Extends host.schema
      (scope.resolveBelow host (count + 1) path) := by
  refine resolveUsing_extends (fun path declared => ?_) path
  obtain ⟨_, before⟩ := exists_resolveBelow_looksUp host scope count path
  obtain ⟨_, after⟩ := exists_resolveBelow_looksUp host scope (count + 1) path
  refine (resolveBelow_extends count path).symm before after fun resolved ended => ?_
  have member : path ∈ scope.answered host (count + 1) :=
    mem_answered.2 ⟨declared, resolved, ended⟩
  exact (mem_answered.1 (stable ▸ member)).2

theorem length_resolvedPaths : host.schema.resolvedPaths.length = host.resolvingMethods := by
  rw [Schema.resolvedPaths, List.length_filterMap_eq_countP, Host.resolvingMethods]
  refine List.countP_congr fun declaration _ => ?_
  cases declaration with
  | inherit => rfl
  | member member =>
    obtain ⟨_, reading, _⟩ := member
    cases reading with
    | field | method => rfl
    | contextMethod call => cases call <;> rfl

/-- As many steps as there are `resolvingMethods` are enough. -/
theorem answered_eq : scope.answered host host.resolvingMethods =
    scope.answered host (host.resolvingMethods + 1) := by
  have cards : (scope.answered host (host.resolvingMethods + 1)).card =
      (scope.answered host host.resolvingMethods).card := by
    refine Nat.stabilises_of_monotone (f := fun count => (scope.answered host count).card)
      (monotone_nat_of_le_succ fun count => Finset.card_le_card (answered_subset count))
      (fun count => ?_) (fun count same => ?_) (Nat.le_succ _)
    · rw [← length_resolvedPaths]
      refine (Finset.card_le_card (t := host.schema.resolvedPaths.toFinset) ?_).trans
        (List.toFinset_card_le _)
      exact fun path member => List.mem_toFinset.2 (mem_answered.1 member).1
    · have stable := Finset.eq_of_subset_of_card_le (answered_subset count) same.ge
      refine congrArg Finset.card (Finset.Subset.antisymm (answered_subset _) fun path member => ?_)
      obtain ⟨declared, resolved, ended⟩ := mem_answered.1 member
      exact mem_answered.2 ⟨declared, resolved,
        (extends_resolveBelow_of_answered_eq stable path).answer_eq ended⟩
  exact Finset.eq_of_subset_of_card_le (answered_subset _) cards.le

/-- A path that comes to name something when methods resolve paths without a limit names the same by
`resolve`, with the limit there is. -/
theorem resolve_extends (path : String) :
    (resolveUsing (scope.resolve host) host scope path).Extends host.schema
      (scope.resolve host path) := by
  have whole : scope.resolve host = scope.resolveBelow host (host.resolvingMethods + 1) :=
    resolveWithin_eq_resolveBelow host.resolvingMethods
  rw [whole]
  exact extends_resolveBelow_of_answered_eq answered_eq path

end Scope

end Mustache
