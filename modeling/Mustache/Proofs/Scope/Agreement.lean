import Mustache.Proofs.Host.Deferral
import Mustache.Proofs.Scope.Lookups

/-!
# Resolving paths in data that corresponds

Two scopes whose frames hold and bind values that correspond, in whatever sense. A step in one of
them agrees with a step in the other if both remember the same members of objects and answer with
what corresponds (`Resolution.Agree`); a first step that does not come to an end may be excused
(`Resolution.AgreeUnless`). All that resolving a path does with a value is to let it settle and to
find a name of the path in what it settled to; if that agrees, so does resolving the path:
`Scope.resolveUsing_agreeUnless`, and without excuses `Scope.resolveUsing_agree`.
-/

namespace Mustache

/-- What `List.lookup` finds under a name is there under this name. -/
theorem mem_of_lookup_eq_some {α : Type} {entries : List (String × α)} {name : String} {value : α}
    (found : entries.lookup name = some value) : (name, value) ∈ entries := by
  obtain ⟨before, after, rfl, _⟩ := List.lookup_eq_some_iff.1 found
  exact List.mem_append_right before List.mem_cons_self

/-- Findings of which both or none is a value, with values that correspond. Lists that hold
nothing are found only where `empties` says so. -/
inductive Finding.Corresponds (empties : Prop) (values : Value → Value → Prop) :
    Finding → Finding → Prop
  | found {left right : Value} (same : values left right) :
      Corresponds empties values (.found left) (.found right)
  | empty (possible : empties) : Corresponds empties values .empty .empty
  | absent : Corresponds empties values .absent .absent
  | unknown : Corresponds empties values .unknown .unknown

/-- What is known, and nothing where nothing is known, makes findings that correspond
(`Finding.ofOption`). -/
theorem Finding.Corresponds.ofOption {empties : Prop} {values : Value → Value → Prop}
    {left right : Option Value} (same : Option.Rel values left right) :
    Corresponds empties values (.ofOption left) (.ofOption right) := by
  cases same with
  | some values => exact .found values
  | none => exact .unknown

/-- What paths name of which both or none is a value, with values that correspond. Lists that
hold nothing are named only where `empties` says so. -/
inductive Resolved.Corresponds (empties : Prop) (values : Value → Value → Prop) :
    Resolved → Resolved → Prop
  | value {left right : Value} (same : values left right) :
      Corresponds empties values (.value left) (.value right)
  | empty (possible : empties) : Corresponds empties values .empty .empty
  | absent : Corresponds empties values .absent .absent

/-- Frames that hold and bind values that correspond. -/
structure Frame.Corresponds (values : Value → Value → Prop) (left right : Frame) : Prop where
  /-- Both or none has a host value. -/
  host : Option.Rel values left.host right.host
  /-- The same names are bound. -/
  bindings : List.Forall₂ (Value.SameName values) left.bindings right.bindings

/-- A frame corresponds to itself if its values do. -/
theorem Frame.corresponds_self {values : Value → Value → Prop} {frame : Frame}
    (hosts : ∀ value ∈ frame.host, values value value)
    (bound : ∀ entry ∈ frame.bindings, values entry.2 entry.2) :
    frame.Corresponds values frame := by
  refine ⟨?_, ?_⟩
  · cases content : frame.host with
    | none => exact .none
    | some value => exact .some (hosts value content)
  · rw [List.forall₂_same]
    rintro ⟨name, value⟩ member
    exact ⟨bound _ member⟩

/-- Scopes whose frames correspond (`Frame.Corresponds`). -/
def Scope.Corresponds (values : Value → Value → Prop) (left right : Scope) : Prop :=
  List.Forall₂ (Frame.Corresponds values) left.frames right.frames

/-- A `child` of a scope corresponds to the child of another if their host values do. -/
theorem Scope.Corresponds.child {values : Value → Value → Prop} {scope other : Scope}
    (same : scope.Corresponds values other) {left right : Option Value}
    (hosts : Option.Rel values left right) :
    (scope.child left).Corresponds values (other.child right) :=
  .cons ⟨hosts, .nil⟩ same

namespace Resolution

/-- Answers that correspond. Neither comes, and for the same reason, only where `stalls` says
so. -/
inductive Results {α β : Type} (stalls : Prop) (answers : α → β → Prop) :
    Except Stall α → Except Stall β → Prop
  | ok {left : α} {right : β} (same : answers left right) :
      Results stalls answers (.ok left) (.ok right)
  | stalled (possible : stalls) (stall : Stall) :
      Results stalls answers (.error stall) (.error stall)

/-- Results whose answers are related are so in any weaker sense. -/
theorem Results.imp {α β : Type} {stalls : Prop} {answers weaker : α → β → Prop}
    {left : Except Stall α} {right : Except Stall β} (results : Results stalls answers left right)
    (weaken : ∀ first second, answers first second → weaker first second) :
    Results stalls weaker left right := by
  cases results with
  | ok same => exact .ok (weaken _ _ same)
  | stalled possible stall => exact .stalled possible stall

/-- Two steps that from every sound cache leave the same sound cache and give answers that
correspond. -/
def Agree {α β : Type} (schema : Schema) (stalls : Prop) (answers : α → β → Prop)
    (left : Resolution α) (right : Resolution β) : Prop :=
  ∀ cache : AccessorCache, cache.Sound schema → ∃ first second after,
    left cache = (first, after) ∧ right cache = (second, after) ∧
      Results stalls answers first second ∧ after.Sound schema

namespace Agree

variable {α β γ δ : Type} {schema : Schema} {stalls : Prop} {answers : α → β → Prop}
  {others : γ → δ → Prop}

theorem ofExcept {left : Except Stall α} {right : Except Stall β}
    (results : Results stalls answers left right) :
    Agree schema stalls answers (Resolution.ofExcept left) (Resolution.ofExcept right) :=
  fun cache sound => ⟨left, right, cache, rfl, rfl, results, sound⟩

theorem pure {left : α} {right : β} (same : answers left right) :
    Agree schema stalls answers (Pure.pure left) (Pure.pure right) :=
  ofExcept (.ok same)

theorem stalled (possible : stalls) (stall : Stall) :
    Agree schema stalls answers (Resolution.stalled stall) (Resolution.stalled stall) :=
  ofExcept (.stalled possible stall)

/-- Steps that `Agree` may follow each other. -/
theorem bind {left : Resolution α} {right : Resolution β} {leftNext : α → Resolution γ}
    {rightNext : β → Resolution δ} (steps : Agree schema stalls answers left right)
    (next : ∀ first second, answers first second →
      Agree schema stalls others (leftNext first) (rightNext second)) :
    Agree schema stalls others (left >>= leftNext) (right >>= rightNext) := by
  intro cache sound
  obtain ⟨first, second, after, leftRun, rightRun, results, afterSound⟩ := steps cache sound
  rw [bind_apply, bind_apply, leftRun, rightRun]
  cases results with
  | ok same => exact next _ _ same after afterSound
  | stalled possible stall =>
    exact ⟨_, _, after, rfl, rfl, .stalled possible stall, afterSound⟩

/-- A member is resolved by `AccessorCache.resolve` to one that the type has. -/
theorem member (schema : Schema) (type : Nat) (name : String) :
    Agree schema stalls (fun left right => left = right ∧ ∀ accessor, left = some accessor →
        accessor ∈ schema.members type)
      (Resolution.ofState (AccessorCache.resolve schema type name))
      (Resolution.ofState (AccessorCache.resolve schema type name)) := by
  intro cache sound
  obtain ⟨found, after⟩ := sound.resolve type name
  refine ⟨_, _, _, rfl, rfl, .ok ⟨rfl, ?_⟩, after⟩
  intro accessor resolved
  have declared : schema.find? type name = some accessor := found.symm.trans resolved
  obtain ⟨kind, _, first⟩ := List.exists_of_findSome?_eq_some declared
  exact List.mem_of_find?_eq_some first

end Agree

/-- Two steps that agree from every sound cache, or of which the first does not come to its end
there, where that is `excused`. -/
def AgreeUnless {α β : Type} (excused : Prop) (schema : Schema) (stalls : Prop)
    (answers : α → β → Prop) (left : Resolution α) (right : Resolution β) : Prop :=
  ∀ cache : AccessorCache, cache.Sound schema →
    (excused ∧ ∃ stall, (left cache).1 = .error stall) ∨
    ∃ first second after, left cache = (first, after) ∧ right cache = (second, after) ∧
      Results stalls answers first second ∧ after.Sound schema

section Unless

variable {α β γ δ : Type} {excused stalls : Prop} {schema : Schema} {answers : α → β → Prop}
  {others : γ → δ → Prop} {left : Resolution α} {right : Resolution β}

/-- Steps that `Agree` do so whatever is excused. -/
theorem Agree.unless (steps : Agree schema stalls answers left right) :
    AgreeUnless excused schema stalls answers left right :=
  fun cache sound => .inr (steps cache sound)

namespace AgreeUnless

/-- Where nothing is excused steps `Agree`. -/
theorem agree (steps : AgreeUnless False schema stalls answers left right) :
    Agree schema stalls answers left right := by
  intro cache sound
  obtain ⟨never, _⟩ | same := steps cache sound
  · exact never.elim
  · exact same

theorem pure {left : α} {right : β} (same : answers left right) :
    AgreeUnless excused schema stalls answers (Pure.pure left) (Pure.pure right) :=
  (Agree.pure same).unless

/-- Steps that agree (`AgreeUnless`) do so in any weaker sense. -/
theorem imp {weaker : α → β → Prop}
    (steps : AgreeUnless excused schema stalls answers left right)
    (weaken : ∀ first second, answers first second → weaker first second) :
    AgreeUnless excused schema stalls weaker left right := by
  intro cache sound
  obtain stuck | ⟨first, second, after, leftRun, rightRun, results, afterSound⟩ :=
    steps cache sound
  · exact .inl stuck
  · exact .inr ⟨first, second, after, leftRun, rightRun, results.imp weaken, afterSound⟩

/-- A step that never comes to its end (`Resolution.stalled`) is excused whatever it is compared
with. -/
theorem stalled (possible : excused) (stall : Stall) :
    AgreeUnless excused schema stalls answers (Resolution.stalled stall) right :=
  fun _ _ => .inl ⟨possible, stall, rfl⟩

/-- Steps that agree unless they are excused (`AgreeUnless`) may follow each other. -/
theorem bind {leftNext : α → Resolution γ} {rightNext : β → Resolution δ}
    (steps : AgreeUnless excused schema stalls answers left right)
    (next : ∀ first second, answers first second →
      AgreeUnless excused schema stalls others (leftNext first) (rightNext second)) :
    AgreeUnless excused schema stalls others (left >>= leftNext) (right >>= rightNext) := by
  intro cache sound
  rw [bind_apply, bind_apply]
  obtain ⟨possible, stall, stuck⟩ | ⟨first, second, after, leftRun, rightRun, results, afterSound⟩ :=
    steps cache sound
  · refine .inl ⟨possible, stall, ?_⟩
    rcases leftRun : left cache with ⟨_ | _, after⟩
    · rw [leftRun] at stuck
      cases stuck
      rfl
    · rw [leftRun] at stuck
      cases stuck
  · rw [leftRun, rightRun]
    cases results with
    | ok same => exact next _ _ same after afterSound
    | stalled possible stall =>
      exact .inr ⟨_, _, after, rfl, rfl, .stalled possible stall, afterSound⟩

end AgreeUnless

end Unless

end Resolution

section Members

variable {empties : Prop} {inner : Value → Value → Prop} {left right : Option Value}

/-- The `finding` of a member that answers with no list says whether there is a value. -/
theorem Accessor.finding_of_not_isIterable {accessor : Accessor}
    (single : accessor.isIterable = false) (answer : Option Value) :
    accessor.finding answer = match answer with
      | some value => .found value
      | none => .absent := by
  unfold Accessor.finding
  split <;> simp [single]

/-- Of values that correspond a member with a single value makes findings that do
(`Accessor.finding`). -/
theorem Accessor.finding_corresponds_single {accessor : Accessor}
    (single : accessor.isIterable = false) (text : ∀ content, inner (.str content) (.str content))
    (same : Option.Rel inner left right) :
    Finding.Corresponds empties inner (accessor.finding (accessor.member.shape.answer left))
      (accessor.finding (accessor.member.shape.answer right)) := by
  rw [finding_of_not_isIterable single, finding_of_not_isIterable single]
  rw [Accessor.isIterable] at single
  cases shape : accessor.member.shape with
  | optional =>
    cases same with
    | some values => exact .found values
    | none => exact .absent
  | required =>
    cases same with
    | some values => exact .found values
    | none => exact .found (text "")
  | list | optionalList =>
    rw [shape] at single
    cases single

end Members

open Resolution

namespace Scope

variable {values : Value → Value → Prop}

/-- The innermost host values (`implicitValue?`) of scopes that correspond do so. -/
theorem implicitValue?_rel {scope other : Scope} (same : scope.Corresponds values other) :
    Option.Rel values scope.implicitValue? other.implicitValue? := by
  have innermost : ∀ {frames others : List Frame},
      List.Forall₂ (Frame.Corresponds values) frames others →
      Option.Rel values (frames.findSome? Frame.host) (others.findSome? Frame.host) := by
    intro frames others all
    induction all with
    | nil => exact .none
    | cons frame _ inductionHypothesis =>
      have hosts := frame.host
      rw [List.findSome?_cons, List.findSome?_cons]
      revert hosts
      generalize Frame.host _ = leftHost, Frame.host _ = rightHost
      rintro (values | _)
      · exact .some values
      · exact inductionHypothesis
  exact innermost same

variable {heads : Value → Value → Prop} {schema : Schema} {excused stalls empties : Prop}
  {leftHost rightHost : Host}

/-- Values have `settled` to what corresponds if the hosts say so. -/
theorem settled_agree {value other : Value}
    (settles : Results stalls (Option.Rel heads) (leftHost.settle value) (rightHost.settle other)) :
    Agree schema stalls (Resolved.Corresponds empties heads) (settled leftHost value)
      (settled rightHost other) := by
  refine (Agree.ofExcept settles).bind ?_
  rintro _ _ (same | _)
  · exact .pure (.value same)
  · exact .pure .absent

section Steps

variable {resolveLeft resolveRight : String → Resolution Resolved} {scope other : Scope}
  {named : String → Prop}
  (settles : ∀ {left right}, values left right →
    Results stalls (Option.Rel heads) (leftHost.settle left) (rightHost.settle right))
  (finds : ∀ {left right}, heads left right → ∀ name, named name →
    AgreeUnless excused schema stalls (Finding.Corresponds empties values)
      (findConcrete resolveLeft leftHost scope left name)
      (findConcrete resolveRight rightHost other right name))

include settles finds

/-- A name names in values that correspond what corresponds, by `find`. -/
theorem find_agreeUnless {left right : Value} (same : values left right) {name : String}
    (among : named name) :
    AgreeUnless excused schema stalls (Finding.Corresponds empties values)
      (find resolveLeft leftHost scope left name)
      (find resolveRight rightHost other right name) := by
  refine (Agree.ofExcept (settles same)).unless.bind ?_
  rintro _ _ (concrete | _)
  · exact finds concrete name among
  · exact .pure .unknown

/-- Names one after another name in values that correspond what corresponds, by `descend`. -/
theorem descend_agreeUnless {left right : Value} (same : values left right) {names : List String}
    (among : ∀ name ∈ names, named name) :
    AgreeUnless excused schema stalls (Resolved.Corresponds empties heads)
      (descend resolveLeft leftHost scope left names)
      (descend resolveRight rightHost other right names) := by
  induction names generalizing left right with
  | nil => exact (settled_agree (settles same)).unless
  | cons name rest inductionHypothesis =>
    obtain ⟨first, others⟩ := List.forall_mem_cons.1 among
    refine (find_agreeUnless settles finds same first).bind ?_
    rintro _ _ (next | possible | _ | _)
    · exact inductionHypothesis next others
    · exact .pure (.empty possible)
    · exact .pure .absent
    · exact .pure .absent

/-- A name names in frames that correspond what corresponds, by `findInFrame`. -/
theorem findInFrame_agreeUnless {left right : Frame} (same : left.Corresponds values right)
    {name : String} (among : named name) :
    AgreeUnless excused schema stalls (Finding.Corresponds empties values)
      (findInFrame resolveLeft leftHost scope left name)
      (findInFrame resolveRight rightHost other right name) := by
  have bound : Option.Rel values (left.binding? name) (right.binding? name) :=
    Value.SameName.lookup same.bindings name
  have hosts := same.host
  unfold findInFrame
  revert bound hosts
  generalize left.binding? name = leftBound, right.binding? name = rightBound,
    left.host = leftValue, right.host = rightValue
  intro bound hosts
  cases bound with
  | some values => exact .pure (.found values)
  | none =>
    simp only
    cases hosts with
    | some values => exact find_agreeUnless settles finds values among
    | none => exact .pure .unknown

/-- Names name from frames that correspond what corresponds, by `resolveNames`. -/
theorem resolveNames_agreeUnless {first : String} {rest : List String}
    (among : ∀ name ∈ first :: rest, named name) {lefts rights : List Frame}
    (same : List.Forall₂ (Frame.Corresponds values) lefts rights) :
    AgreeUnless excused schema stalls (Resolved.Corresponds empties heads)
      (resolveNames resolveLeft leftHost scope first rest lefts)
      (resolveNames resolveRight rightHost other first rest rights) := by
  obtain ⟨head, others⟩ := List.forall_mem_cons.1 among
  induction same with
  | nil => exact .pure .absent
  | cons frame _ inductionHypothesis =>
    refine (findInFrame_agreeUnless settles finds frame head).bind ?_
    rintro _ _ (values | possible | _ | _)
    · exact descend_agreeUnless settles finds values others
    · exact .pure (.empty possible)
    · exact .pure .absent
    · exact inductionHypothesis

/-- A path names by `resolveUsing` from scopes that correspond what corresponds, if values settle to
what corresponds and the names of the path name in settled values what corresponds. -/
theorem resolveUsing_agreeUnless (same : scope.Corresponds values other) {path : String}
    (among : path ≠ Path.implicit → ∀ name ∈ Path.components path, named name) :
    AgreeUnless excused schema stalls (Resolved.Corresponds empties heads)
      (resolveUsing resolveLeft leftHost scope path)
      (resolveUsing resolveRight rightHost other path) := by
  have implicit := implicitValue?_rel same
  unfold resolveUsing
  split
  · revert implicit
    generalize scope.implicitValue? = leftValue, other.implicitValue? = rightValue
    rintro (values | _)
    · exact (settled_agree (settles values)).unless
    · exact .pure .absent
  · next explicit =>
    split
    · exact .pure .absent
    · next names =>
      rw [names] at among
      exact resolveNames_agreeUnless settles finds (among explicit) same

end Steps

/-- A path names by `resolveUsing` from scopes that correspond what corresponds, if values settle to
what corresponds and names name in settled values what corresponds. -/
theorem resolveUsing_agree {resolveLeft resolveRight : String → Resolution Resolved}
    {scope other : Scope}
    (settles : ∀ {left right}, values left right →
      Results stalls (Option.Rel heads) (leftHost.settle left) (rightHost.settle right))
    (finds : ∀ {left right}, heads left right → ∀ name,
      Agree schema stalls (Finding.Corresponds empties values)
        (findConcrete resolveLeft leftHost scope left name)
        (findConcrete resolveRight rightHost other right name))
    (same : scope.Corresponds values other) (path : String) :
    Agree schema stalls (Resolved.Corresponds empties heads)
      (resolveUsing resolveLeft leftHost scope path)
      (resolveUsing resolveRight rightHost other path) :=
  (resolveUsing_agreeUnless settles
    (fun heads name _ => (finds heads name).unless) same fun _ _ _ => trivial).agree

end Scope

end Mustache
