import Mustache.Proofs.Program.Matching
import Mustache.Proofs.Render.Alike

/-!
# A section and its inverse

Of a section and an inverted section over the same path exactly one is run. The path names the same
for both, whatever the first one did in between, because all that a run can change about resolving
is which members were found before; so resolving a path again may be left out
(`Rendering.ShowsSame.of_named`). `Rendering.run_section_inverted` says for which values which of
the two is run, and how often.
-/

namespace Mustache

/-- What a section is not run over. -/
inductive Resolved.IsFalse : Resolved → Prop where
  /-- Nothing. -/
  | absent : IsFalse .absent
  /-- A list that holds nothing, or is not there. -/
  | empty : IsFalse .empty
  /-- The truth value false. -/
  | false : IsFalse (.value (.bool false))
  /-- A list without items. -/
  | emptyList : IsFalse (.value (.list []))
  /-- The document null. -/
  | null : IsFalse (.value (.document .null))
  /-- The truth value false in a document. -/
  | documentFalse : IsFalse (.value (.document (.bool false)))
  /-- An array without items. -/
  | emptyArray : IsFalse (.value (.document (.array [])))

/-- A block has no frames just over what is as good as false. -/
theorem Resolved.frameHosts_eq_nil_iff {resolved : Resolved} :
    resolved.frameHosts = [] ↔ resolved.IsFalse := by
  constructor
  · intro nothing
    cases resolved with
    | empty => exact .empty
    | absent => exact .absent
    | value value =>
      cases value with
      | bool value =>
        cases value with
        | false => exact .false
        | true => cases nothing
      | list items =>
        obtain rfl := List.map_eq_nil_iff.1 nothing
        exact .emptyList
      | document document =>
        cases document with
        | null => exact .null
        | bool value =>
          cases value with
          | false => exact .documentFalse
          | true => cases nothing
        | array items =>
          obtain rfl := List.map_eq_nil_iff.1 nothing
          exact .emptyArray
        | number | string | object => cases nothing
      | int | float | str | map | deferred | object => cases nothing
  · intro isFalse
    cases isFalse <;> rfl

/-- A section over a path and after it an inverted section over the same path. -/
def Instruction.sectionAndInverse (path : String) (first second : List Instruction) :
    List Instruction :=
  .openBlock .iterable path :: (first ++ .closeBlock ::
    .openBlock .inverted path :: (second ++ [.closeBlock]))

namespace Rendering

variable {σ α : Type}

/-- Does something for each element of what a section is run over: for the items of a list or an
array one after another, once without a value for the truth value true, and once for any other
value. It is told by the value itself, not by `frameHosts`. -/
def overElements (body : Option Value → Rendering σ Unit) : Value → Rendering σ Unit
  | .list items => items.forM fun item => body (some item)
  | .document (.array items) => items.forM fun item => body (some (Value.ofDocument item))
  | .bool true | .document (.bool true) => body none
  | value => body (some value)

/-- The frames of a section (`frameHosts`) are one for each element of what it is run over. -/
theorem forM_frameHosts {value : Value} (notFalse : ¬ (Resolved.value value).IsFalse)
    (body : Option Value → Rendering σ Unit) :
    (Resolved.value value).frameHosts.forM body = overElements body value := by
  have once : ∀ host, [host].forM body = body host := fun host => bind_pure_unit
  cases value with
  | list items => exact List.forM_map
  | bool value =>
    cases value with
    | false => exact absurd .false notFalse
    | true => exact once none
  | document document =>
    cases document with
    | null => exact absurd .null notFalse
    | bool value =>
      cases value with
      | false => exact absurd .documentFalse notFalse
      | true => exact once none
    | array items => exact List.forM_map
    | number | string | object => exact once _
  | int | float | str | map | deferred | object => exact once _

/-- What shows of a run: how it ended, its sink and its loader. -/
def shown (ran : Except RenderError α × Session σ) : Except RenderError α × Sink × σ :=
  (ran.1, ran.2.sink, ran.2.loading)

/-- Two steps that show the same (`shown`) whichever members were found before. -/
def ShowsSame (schema : Schema) (left right : Rendering σ α) : Prop :=
  Alike (Session.Alongside Eq (AccessorCache.BothSound schema) Eq) left right

namespace ShowsSame

variable {schema : Schema} {host : Host} {scope : Scope} {path : String} {resolved : Resolved}

/-- Steps that show the same (`ShowsSame`) may be taken one after the other. -/
theorem composes : Composes (ShowsSame schema : Rendering σ Unit → Rendering σ Unit → Prop) where
  done := Alike.pure ()
  andThen first second := (Composes.alikeUnless.andThen first.unless second.unless).alike

/-- From a sound cache steps that show the same (`ShowsSame`) do so. -/
theorem shown_eq {left right : Rendering σ α} (same : ShowsSame schema left right)
    {session : Session σ} (sound : session.accessors.Sound schema) :
    shown (left session) = shown (right session) := by
  obtain ⟨ended, sessions⟩ := same session session ⟨rfl, ⟨sound, sound⟩, rfl⟩
  exact Prod.ext ended (Prod.ext sessions.sink sessions.loading)

/-- A run shows the same (`ShowsSame`) as itself. -/
theorem run (host : Host) (loader : Loader σ) (program : Program) (scope : Scope) :
    ShowsSame host.schema (Rendering.run host loader program scope)
      (Rendering.run host loader program scope) :=
  execute_alike Sink.takeAlike_eq (Scope.resolve_alike host) (fun name => .of_eq (loader.load name))
    0 program 0 program.instructions.size scope

/-- Where it is known what a path names, to `resolve` it may be left out. -/
theorem of_named (named : (scope.resolve host path).answer = .ok resolved)
    {next : Resolved → Rendering σ α} {other : Rendering σ α}
    (following : ShowsSame host.schema (next resolved) other) :
    ShowsSame host.schema (resolve host scope path >>= next) other := by
  intro first second start
  obtain ⟨sink, ⟨firstSound, secondSound⟩, loading⟩ := start
  rw [bind_apply, resolve_of_sound firstSound, named]
  exact following _ _ ⟨sink, ⟨firstSound.lookUpAll _, secondSound⟩, loading⟩

end ShowsSame

section

variable {whole first second : Program} {path : String}
  (laidOut : whole.instructions.toList = Instruction.sectionAndInverse path
    first.instructions.toList second.instructions.toList)

include laidOut

/-- Running a section and an inverted section over one path is doing first what the one and then
what the other does (`overFrames`) with its body as a program of its own. -/
theorem run_blocks (host : Host) (loader : Loader σ) (scope : Scope) :
    run host loader whole scope = (do
      overFrames host .iterable path scope (run host loader first)
      overFrames host .inverted path scope (run host loader second)) := by
  obtain ⟨body, firstLaidOut⟩ := first.exists_routine
  obtain ⟨inverse, secondLaidOut⟩ := second.exists_routine
  have runFirst : run host loader first = runRoutine host loader 0 body :=
    funext fun _ => execute_eq_runRoutine body firstLaidOut
  have runSecond : run host loader second = runRoutine host loader 0 inverse :=
    funext fun _ => execute_eq_runRoutine inverse secondLaidOut
  have flattened : whole.instructions.toList =
      (Routine.block .iterable path body (.block .inverted path inverse .done)).flatten := by
    rw [laidOut, firstLaidOut, secondLaidOut]
    rfl
  rw [runFirst, runSecond, run, execute_eq_runRoutine _ flattened, runRoutine, runRoutine,
    runRoutine]
  exact congrArg _ (funext fun _ => bind_pure_unit)

/-- Where it is known what the path names, running a section and an inverted section over it is
running the first program in a child for each of the `frameHosts`, and the second one if there is
none. -/
theorem run_blocks_showsSame {host : Host} {scope : Scope} {resolved : Resolved}
    (named : (scope.resolve host path).answer = .ok resolved) (loader : Loader σ) :
    ShowsSame host.schema (run host loader whole scope) (do
      resolved.frameHosts.forM fun inner => run host loader first (scope.child inner)
      if resolved.frameHosts.isEmpty then run host loader second scope else pure ()) := by
  rw [run_blocks laidOut]
  refine ShowsSame.composes.andThen (.of_named named ?_) (.of_named named ?_)
  · refine ShowsSame.composes.forM (List.forall₂_same.2 fun _ _ => rfl) ?_
    rintro inner _ rfl
    exact .run host loader first (scope.child inner)
  · change ShowsSame host.schema
      (if resolved.frameHosts.isEmpty then run host loader second scope else pure ()) _
    split
    · exact .run host loader second scope
    · exact ShowsSame.composes.done

end

/-- A section and an inverted section over the same path (`Instruction.sectionAndInverse`)
complement each other. Where the path names nothing, a list or an array without items, false or
null, they show what one run of the inverted body in the same scope shows. Otherwise they show what
runs of the section's body show, one after another for each element of what the path names, each in
a child of the scope for that element. (If it never turns out what the path names, nothing is
written.) -/
theorem run_section_inverted {first second : List Instruction}
    (firstBalanced : Instruction.Balanced first) (secondBalanced : Instruction.Balanced second)
    (path : String) :
    ∃ body inverse whole : Program, Program.make first = .ok body ∧
      Program.make second = .ok inverse ∧
      Program.make (Instruction.sectionAndInverse path first second) = .ok whole ∧
      ∀ {σ : Type} (host : Host) (loader : Loader σ) (scope : Scope) (session : Session σ),
        session.accessors.Sound host.schema →
        match (scope.resolve host path session.accessors).1 with
        | .error stall =>
          shown (run host loader whole scope session) =
            (.error (.stalled stall), session.sink, session.loading)
        | .ok resolved =>
          (resolved.IsFalse ∧ shown (run host loader whole scope session) =
            shown (run host loader inverse scope session)) ∨
          ∃ value, resolved = .value value ∧ ¬ resolved.IsFalse ∧
            shown (run host loader whole scope session) =
              shown (overElements (fun inner => run host loader body (scope.child inner)) value
                session) := by
  obtain ⟨body, bodyMade⟩ := Program.exists_make_iff_balanced.2 firstBalanced
  obtain ⟨inverse, inverseMade⟩ := Program.exists_make_iff_balanced.2 secondBalanced
  have wholeBalanced : Instruction.Balanced (Instruction.sectionAndInverse path first second) :=
    .block firstBalanced (.block secondBalanced .nil)
  obtain ⟨whole, wholeMade⟩ := Program.exists_make_iff_balanced.2 wholeBalanced
  refine ⟨body, inverse, whole, bodyMade, inverseMade, wholeMade, ?_⟩
  intro σ host loader scope session sound
  have laidOut := Program.toList_instructions_of_make wholeMade
  rw [← Program.toList_instructions_of_make bodyMade,
    ← Program.toList_instructions_of_make inverseMade] at laidOut
  rw [scope.resolve_looksUp host path session.accessors sound]
  cases named : (scope.resolve host path).answer with
  | error stall =>
    rw [run_blocks laidOut, overFrames, bind_assoc, bind_apply, resolve_of_sound sound, named]
    rfl
  | ok resolved =>
    have same := (run_blocks_showsSame laidOut named loader).shown_eq sound
    by_cases isFalse : resolved.IsFalse
    · rw [Resolved.frameHosts_eq_nil_iff.2 isFalse] at same
      exact .inl ⟨isFalse, same⟩
    · cases resolved with
      | empty => exact absurd .empty isFalse
      | absent => exact absurd .absent isFalse
      | value value =>
        refine .inr ⟨value, rfl, isFalse, ?_⟩
        have frames : (Resolved.value value).frameHosts.isEmpty = false := by
          rw [List.isEmpty_eq_false_iff]
          exact mt Resolved.frameHosts_eq_nil_iff.1 isFalse
        rw [same, forM_frameHosts isFalse, frames]
        simp only [Bool.false_eq_true, if_false, bind_pure_unit]

/-- An array of a text, false and null: none of them keeps the section from being run over the next
one. -/
theorem run_section_inverted_array :
    let first : List Instruction := [.literal "[", .interpolation "." true, .literal "]"]
    let second : List Instruction := [.literal "none"]
    let host : Host := ⟨[], #[], #[]⟩
    let loader : Loader Unit := ⟨fun name => throw (.templateNotFound name name)⟩
    let items : List Document := [.string "a", .bool false, .null]
    let scope : Scope := .ofFrames [⟨some (.map [("xs", .document (.array items))]), []⟩]
    let session : Session Unit := ⟨{}, {}, ()⟩
    Instruction.Balanced first ∧ Instruction.Balanced second ∧
      session.accessors.Sound host.schema ∧
      ∃ body whole : Program, Program.make first = .ok body ∧
        Program.make (Instruction.sectionAndInverse "xs" first second) = .ok whole ∧
        shown (run host loader whole scope session) =
          shown ([Value.str "a", .bool false, .document .null].forM
            (fun item => run host loader body (scope.child (some item))) session) := by
  intro first second host loader items scope session
  have firstBalanced : Instruction.Balanced first :=
    .plain trivial (.plain trivial (.plain trivial .nil))
  have secondBalanced : Instruction.Balanced second := .plain trivial .nil
  have sound : session.accessors.Sound host.schema := AccessorCache.sound_empty _
  obtain ⟨body, inverse, whole, bodyMade, _, wholeMade, runs⟩ :=
    run_section_inverted firstBalanced secondBalanced "xs"
  have named : (scope.resolve host "xs" session.accessors).1 =
      .ok (.value (.document (.array items))) := rfl
  have ran := runs host loader scope session sound
  rw [named] at ran
  obtain ⟨isFalse, _⟩ | ⟨_, ⟨⟩, _, same⟩ := ran
  · exact absurd (Resolved.frameHosts_eq_nil_iff.2 isFalse) (List.cons_ne_nil _ _)
  · exact ⟨firstBalanced, secondBalanced, sound, body, whole, bodyMade, wholeMade, same⟩

end Rendering

end Mustache
