import Mustache.Proofs.Host.Members
import Mustache.Proofs.Host.Parts
import Mustache.Proofs.Scope.Agreement

/-!
# What a path can get at

What is true everywhere from the values of a scope is true everywhere from what its paths name, for
resolving a path only ever gets at parts of these values: `Scope.resolve_sameEverywhere`. Where no
object has a method that is given a frame, it does not matter on whose behalf a name is looked for:
`Scope.findConcrete_uncontextual`.
-/

namespace Mustache

/-- The same answer twice; if it is a value, something is true `Everywhere` from it. -/
def Host.SameFound (host : Host) (good : Value → Prop) (left right : Option Value) : Prop :=
  left = right ∧ ∀ value ∈ left, host.Everywhere good value

/-- Something is true `Everywhere` from what the frames of a scope hold and bind. -/
def Scope.Everywhere (host : Host) (good : Value → Prop) (scope : Scope) : Prop :=
  ∀ frame ∈ scope.frames, (∀ value ∈ frame.host, host.Everywhere good value) ∧
    ∀ entry ∈ frame.bindings, host.Everywhere good entry.2

/-- What is true of all values is true `Everywhere` in a scope. -/
theorem Scope.everywhere_of_forall {good : Value → Prop} (all : ∀ value, good value) (host : Host)
    (scope : Scope) : scope.Everywhere host good :=
  fun _ _ => ⟨fun _ _ part _ => all part, fun _ _ part _ => all part⟩

/-- The path that a declared method resolves. -/
def Declaration.resolvedPath? : Declaration → Option String
  | .member ⟨_, .contextMethod (.resolution path), _⟩ => some path
  | _ => none

/-- The paths that methods of all types resolve. -/
def Schema.resolvedPaths (schema : Schema) : List String :=
  schema.flatten.filterMap Declaration.resolvedPath?

/-- What a method of a type resolves is among the `resolvedPaths`. -/
theorem Schema.mem_resolvedPaths {schema : Schema} {type : Nat} {accessor : Accessor}
    (declared : accessor ∈ schema.members type) {path : String}
    (reading : accessor.member.reading = .contextMethod (.resolution path)) :
    path ∈ schema.resolvedPaths := by
  refine List.mem_filterMap.2 ⟨_, member_mem_flatten declared, ?_⟩
  rcases accessor with ⟨_, _, _, _⟩
  simp only at reading
  subst reading
  rfl

open Resolution

section

variable {host : Host} {good : Value → Prop} {excused stalls : Prop}

/-- The frames of a scope of which something is true `Everywhere` correspond to themselves. -/
theorem Scope.Everywhere.corresponds {scope : Scope} (everywhere : scope.Everywhere host good) :
    scope.Corresponds (host.SameEverywhere good) scope := by
  rw [Scope.Corresponds, List.forall₂_same]
  intro frame member
  obtain ⟨hosts, bound⟩ := everywhere frame member
  exact Frame.corresponds_self (fun value present => ⟨rfl, hosts value present⟩)
    (fun entry present => ⟨rfl, bound entry present⟩)

/-- Something is true `Everywhere` in a `child` of a scope if it is so in the scope and from the
child's host value. -/
theorem Scope.Everywhere.child {scope : Scope} (everywhere : scope.Everywhere host good)
    {value : Option Value} (inside : ∀ content ∈ value, host.Everywhere good content) :
    (scope.child value).Everywhere host good := by
  intro frame member
  rcases List.mem_cons.1 member with rfl | outer
  · exact ⟨inside, fun _ bound => (List.not_mem_nil bound).elim⟩
  · exact everywhere frame outer

/-- The same value settles by `Host.settle` to the same value, which can be got at from it. -/
theorem Host.SameEverywhere.settle_results {left right : Value}
    (same : host.SameEverywhere good left right)
    (possible : ∀ stall, host.settle left = .error stall → stalls) :
    Results stalls (Option.Rel (host.SameEverywhere good)) (host.settle left)
      (host.settle right) := by
  obtain ⟨rfl, everywhere⟩ := same
  rcases settled : host.settle left with stall | _ | concrete
  · exact .stalled (possible stall settled) stall
  · exact .ok .none
  · exact .ok (.some ⟨rfl, everywhere.settle settled⟩)

/-- Of an answer from which something is true everywhere a member makes the same finding twice
(`Accessor.finding`). -/
theorem Accessor.finding_sameEverywhere (accessor : Accessor) {found : Option Value}
    (inside : ∀ value ∈ found, host.Everywhere good value) :
    Finding.Corresponds True (host.SameEverywhere good) (accessor.finding found)
      (accessor.finding found) := by
  have value : ∀ content, found = some content →
      Finding.Corresponds True (host.SameEverywhere good) (.found content) (.found content) :=
    fun content present => .found ⟨rfl, inside content present⟩
  unfold Accessor.finding
  split
  · split
    · exact .empty trivial
    · exact value _ rfl
  · exact value _ rfl
  · split
    · exact .empty trivial
    · exact .absent

section Names

variable {resolveLeft resolveRight : String → Resolution Resolved} {scope other : Scope}

namespace Scope

/-- A name names the same in a value on behalf of two frames (`findConcrete`), if the members of
objects answer the same; and something is true everywhere from it if it is so from the value and
from what these answer. -/
theorem findConcrete_sameEverywhere (plain : ∀ value : Value, value.IsPlain → good value)
    {left right : Value} (same : host.SameEverywhere good left right)
    (members : ∀ identity, left = .object identity →
      ∀ accessor ∈ host.schema.members (host.typeOf identity),
        AgreeUnless excused host.schema stalls (host.SameFound good)
          (accessor.read resolveLeft host scope identity)
          (accessor.read resolveRight host other identity))
    (name : String) :
    AgreeUnless excused host.schema stalls
      (Finding.Corresponds True (host.SameEverywhere good))
      (findConcrete resolveLeft host scope left name)
      (findConcrete resolveRight host other right name) := by
  obtain ⟨rfl, everywhere⟩ := same
  have known : ∀ part : Option Value, (∀ value ∈ part, host.Holds left value) →
      Finding.Corresponds True (host.SameEverywhere good) (.ofOption part) (.ofOption part) := by
    rintro (_ | value) inside
    · exact .unknown
    · exact .found ⟨rfl, everywhere.of_holds (inside value rfl)⟩
  cases left with
  | bool | int | float | str | deferred => exact .pure .unknown
  | map entries => exact .pure (known _ fun _ found => .entry (mem_of_lookup_eq_some found))
  | list items =>
    refine .pure (known _ fun value found => .item ?_)
    obtain ⟨position, _, member⟩ := Option.bind_eq_some_iff.1 found
    exact List.mem_of_getElem? member
  | document document =>
    refine .pure ?_
    unfold Document.find
    split
    · exact .unknown
    · exact .unknown
    · exact .found ⟨rfl, Host.everywhere_ofDocument plain _⟩
  | object identity =>
    refine (Agree.member host.schema _ name).unless.bind ?_
    rintro found _ ⟨rfl, declared⟩
    cases found with
    | none => exact .pure .unknown
    | some accessor =>
      refine (members identity rfl accessor (declared accessor rfl)).bind ?_
      rintro answer _ ⟨rfl, inside⟩
      exact .pure (accessor.finding_sameEverywhere inside)

/-- Where no object has a method that is given a frame (`Host.IsUncontextual`), `findConcrete` finds
the same on behalf of any two frames. -/
theorem findConcrete_uncontextual {left right : Value}
    (same : host.SameEverywhere host.IsUncontextual left right) (name : String) :
    AgreeUnless excused host.schema stalls
      (Finding.Corresponds True (host.SameEverywhere host.IsUncontextual))
      (findConcrete resolveLeft host scope left name)
      (findConcrete resolveRight host other right name) := by
  refine findConcrete_sameEverywhere host.isUncontextual_of_isPlain same ?_ name
  rintro identity rfl accessor declared
  have answers : ∀ key, host.SameFound host.IsUncontextual
      (accessor.member.shape.answer (host.fieldAt? identity accessor.route key))
      (accessor.member.shape.answer (host.fieldAt? identity accessor.route key)) :=
    fun key => ⟨rfl, Host.everywhere_answer host.isUncontextual_of_isPlain
      (fun value found => same.2.of_holds (.field found)) accessor.member.shape⟩
  unfold Accessor.read
  cases reading : accessor.member.reading with
  | field key | method key => exact .pure (answers key)
  | contextMethod call =>
    refine absurd ?_ (same.2.here identity rfl accessor declared)
    rw [Accessor.kind, reading, Reading.kind]

end Scope

/-- A member answers the same to `Accessor.read` if the paths that it resolves name the same. -/
theorem Accessor.read_sameEverywhere (plain : ∀ value : Value, value.IsPlain → good value)
    (possible : ∀ value stall, good value → host.settle value = .error stall → stalls)
    (everywhere : scope.Everywhere host good) {identity : Nat}
    (object : host.Everywhere good (.object identity)) (accessor : Accessor)
    (inner : ∀ path, accessor.member.reading = .contextMethod (.resolution path) →
      AgreeUnless excused host.schema stalls (Resolved.Corresponds True (host.SameEverywhere good))
        (resolveLeft path) (resolveRight path)) :
    AgreeUnless excused host.schema stalls (host.SameFound good)
      (accessor.read resolveLeft host scope identity)
      (accessor.read resolveRight host scope identity) := by
  have answer : ∀ found : Option Value, (∀ value ∈ found, host.Everywhere good value) →
      host.SameFound good (accessor.member.shape.answer found)
        (accessor.member.shape.answer found) :=
    fun found inside => ⟨rfl, Host.everywhere_answer plain inside accessor.member.shape⟩
  have nothing := answer none fun value present => absurd present (Option.not_mem_none value)
  have own : ∀ key, ∀ value ∈ host.fieldAt? identity accessor.route key,
      host.Everywhere good value :=
    fun key value found => object.of_holds (.field found)
  unfold Accessor.read
  cases reading : accessor.member.reading with
  | field key | method key => exact .pure (answer _ (own key))
  | contextMethod call =>
    cases call with
    | own key => exact .pure (answer _ (own key))
    | hostText =>
      simp only [ContextCall.answer]
      have inFrame := (everywhere _ List.mem_cons_self).1
      revert inFrame
      cases scope.frame.host with
      | none => exact fun _ => .pure nothing
      | some value =>
        intro inFrame
        simp only [bind_assoc, pure_bind]
        have texts : Results stalls Eq (host.text value) (host.text value) := by
          unfold Host.text
          cases settled : host.settle value with
          | error stall =>
            exact .stalled (possible value stall (inFrame value rfl).here settled) stall
          | ok last => cases last <;> exact .ok rfl
        refine (Agree.ofExcept texts).unless.bind ?_
        rintro text _ rfl
        refine .pure (answer _ ?_)
        rintro _ ⟨⟩
        exact Host.everywhere_of_isSimple plain trivial
    | depth | hasParent =>
      refine .pure (answer _ ?_)
      rintro _ ⟨⟩
      exact Host.everywhere_of_isSimple plain trivial
    | binding name =>
      have bound := (everywhere _ List.mem_cons_self).2
      exact .pure (answer _ fun _ found => bound _ (mem_of_lookup_eq_some found))
    | resolution path =>
      simp only [ContextCall.answer, bind_assoc, pure_bind]
      refine (inner path reading).bind ?_
      rintro _ _ (⟨rfl, inside⟩ | _ | _)
      · refine .pure (answer _ ?_)
        rintro _ ⟨⟩
        exact inside
      · exact .pure nothing
      · exact .pure nothing

namespace Scope

/-- A path names the same by `resolveUsing` if the paths that methods resolve do, and something is
true everywhere from it if it is so in the scope. -/
theorem resolveUsing_sameEverywhere (plain : ∀ value : Value, value.IsPlain → good value)
    (possible : ∀ value stall, good value → host.settle value = .error stall → stalls)
    (everywhere : scope.Everywhere host good)
    (inner : ∀ path ∈ host.schema.resolvedPaths,
      AgreeUnless excused host.schema stalls (Resolved.Corresponds True (host.SameEverywhere good))
        (resolveLeft path) (resolveRight path))
    (path : String) :
    AgreeUnless excused host.schema stalls (Resolved.Corresponds True (host.SameEverywhere good))
      (resolveUsing resolveLeft host scope path) (resolveUsing resolveRight host scope path) := by
  have finds : ∀ {left right}, host.SameEverywhere good left right → ∀ name, True →
      AgreeUnless excused host.schema stalls
        (Finding.Corresponds True (host.SameEverywhere good))
        (findConcrete resolveLeft host scope left name)
        (findConcrete resolveRight host scope right name) := by
    intro left right same name _
    refine findConcrete_sameEverywhere plain same ?_ name
    rintro identity rfl accessor declared
    exact accessor.read_sameEverywhere plain possible everywhere same.2
      fun path reading => inner path (Schema.mem_resolvedPaths declared reading)
  exact resolveUsing_agreeUnless
    (fun same => same.settle_results fun stall => possible _ stall same.2.here) finds
    everywhere.corresponds fun _ _ _ => trivial

theorem resolveWithin_sameEverywhere (plain : ∀ value : Value, value.IsPlain → good value)
    (everywhere : scope.Everywhere host good) (count : Nat) (path : String) :
    Agree host.schema True (Resolved.Corresponds True (host.SameEverywhere good))
      (scope.resolveWithin host count path) (scope.resolveWithin host count path) := by
  induction count generalizing path with
  | zero =>
    rw [resolveWithin_zero]
    exact (resolveUsing_sameEverywhere plain (fun _ _ _ _ => trivial) everywhere
      (fun _ _ => (Agree.stalled trivial _).unless) path).agree
  | succ count inductionHypothesis =>
    rw [resolveWithin_succ]
    exact (resolveUsing_sameEverywhere plain (fun _ _ _ _ => trivial) everywhere
      (fun path _ => (inductionHypothesis path).unless) path).agree

/-- What is true everywhere in a scope is true everywhere from what `resolve` names from it. -/
theorem resolve_sameEverywhere (plain : ∀ value : Value, value.IsPlain → good value)
    (everywhere : scope.Everywhere host good) (path : String) :
    Agree host.schema True (Resolved.Corresponds True (host.SameEverywhere good))
      (scope.resolve host path) (scope.resolve host path) :=
  resolveWithin_sameEverywhere plain everywhere host.resolvingMethods path

end Scope

end Names

end

end Mustache
