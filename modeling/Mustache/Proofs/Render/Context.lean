import Mustache.Proofs.Program.Context
import Mustache.Proofs.Render.Alike

/-!
# Running what stands in a place

What two routines do in the same place of a program differs only as far as they differ where this
place is run, in each of the scopes that the blocks around it make: `runRoutine_fill_alikeUnless`.
-/

namespace Mustache

namespace Rendering

variable {σ : Type} {host : Host} {loader : Loader σ}

/-- One routine and then another is what `runRoutine` runs for what `append` makes of them. -/
theorem runRoutine_append (depth : Nat) (first second : Routine) (scope : Scope) :
    runRoutine host loader depth (first.append second) scope = (do
      runRoutine host loader depth first scope
      runRoutine host loader depth second scope) := by
  induction first with
  | done => rfl
  | literal _ _ inductionHypothesis | interpolation _ _ _ inductionHypothesis
  | partialCall _ _ inductionHypothesis =>
    rw [Routine.append, runRoutine, runRoutine, inductionHypothesis, bind_assoc]
  | block kind path body next _ nextHypothesis =>
    rw [Routine.append, runRoutine, runRoutine, nextHypothesis, bind_assoc]

/-- What is related for every step of rendering is related for `runRoutine`. -/
theorem runRoutine_relatedFor {scopes : Scope → Scope → Prop}
    {related : Rendering σ Unit → Rendering σ Unit → Prop} {other : Host}
    (alike : Actions.RelatedFor (fun _ => True) scopes related (actions host loader)
      (actions other loader))
    (depth : Nat) (routine : Routine) {scope inner : Scope} (same : scopes scope inner) :
    related (runRoutine host loader depth routine scope)
      (runRoutine other loader depth routine inner) := by
  obtain ⟨program, _, laidOut⟩ := Program.exists_make_flatten routine
  rw [← execute_eq_runRoutine routine laidOut, ← execute_eq_runRoutine routine laidOut]
  exact execute_relatedFor alike depth program (fun _ _ => trivial) 0 program.instructions.size same

section

variable {sinks : Sink → Sink → Prop} {caches : AccessorCache → AccessorCache → Prop}
  {states : σ → σ → Prop} {excused : RenderError → Prop}
  (takes : Sink.TakeAlike sinks)
  (resolves : ∀ scope path, Alike caches (Scope.resolve host scope path)
    (Scope.resolve host scope path))
  (loads : ∀ name, Alike states (loader.load name) (loader.load name))
  (places : List (BlockKind × String) → Scope → Prop)
  (iterable : ∀ {blocks inner path cache further resolved content}, places blocks inner →
    caches cache further → (Scope.resolve host inner path cache).1 = .ok resolved →
    content ∈ Resolved.frameHosts resolved →
    places ((.iterable, path) :: blocks) (inner.child content))
  (inverted : ∀ {blocks inner path cache further resolved}, places blocks inner →
    caches cache further → (Scope.resolve host inner path cache).1 = .ok resolved →
    Resolved.frameHosts resolved = [] → places ((.inverted, path) :: blocks) inner)

include takes resolves loads iterable inverted

/-- Two routines in the same place (`Context.fill`) are alike if they are in the scopes in which
this place may be run. -/
theorem runRoutine_fill_alikeUnless (depth : Nat) {left right : Routine} (context : Routine.Context)
    (blocks : List (BlockKind × String)) {scope : Scope} (held : places blocks scope)
    (placed : ∀ inner, places (Instruction.openAfter blocks context.leading) inner →
      AlikeUnless excused (Session.Alongside sinks caches states)
        (runRoutine host loader depth left inner) (runRoutine host loader depth right inner)) :
    AlikeUnless excused (Session.Alongside sinks caches states)
      (runRoutine host loader depth (context.fill left) scope)
      (runRoutine host loader depth (context.fill right) scope) := by
  have shows := Host.showsAlike_self resolves fun _ => True
  have same : ∀ (routine : Routine) (scope : Scope),
      AlikeUnless excused (Session.Alongside sinks caches states)
        (runRoutine host loader depth routine scope) (runRoutine host loader depth routine scope) :=
    fun routine _ => runRoutine_relatedFor (actions_alikeUnless takes (fun name _ => loads name)
      (fun _ _ _ _ _ _ _ _ _ => trivial) shows) depth routine rfl
  induction context generalizing blocks scope with
  | after first =>
    have here := Instruction.openAfter_flatten_append blocks first []
    rw [List.append_nil] at here
    rw [Routine.Context.leading, here] at placed
    rw [Routine.Context.fill, Routine.Context.fill, runRoutine_append, runRoutine_append]
    exact (same first scope).bind_of_result fun _ _ _ _ _ => placed scope held
  | inside first kind path body next inductionHypothesis =>
    rw [Routine.Context.leading, Instruction.openAfter_flatten_append] at placed
    rw [Routine.Context.fill, Routine.Context.fill, runRoutine_append, runRoutine_append,
      runRoutine, runRoutine]
    refine (same first scope).bind_of_result fun _ _ _ _ _ =>
      AlikeUnless.bind_of_result ?_ fun _ _ _ _ _ => same next scope
    have named : (Instruction.openBlock kind path).path? = some path := rfl
    refine resolve_bind_alikeUnless shows trivial named (rfl : scope = scope) ?_
    rintro cache further start resolved other answered corresponds
    obtain rfl : resolved = other := by
      rcases corresponds with rfl | _ | _ <;> rfl
    cases kind with
    | iterable =>
      have each : List.Forall₂ (fun first second => first = second ∧ first ∈ resolved.frameHosts)
          resolved.frameHosts resolved.frameHosts :=
        List.forall₂_same.2 fun _ member => ⟨rfl, member⟩
      refine Composes.alikeUnless.forM each ?_
      rintro content _ ⟨rfl, member⟩
      exact inductionHypothesis _ (iterable held start answered member) placed
    | inverted =>
      by_cases nothing : resolved.frameHosts = []
      · simp only [nothing, List.isEmpty_nil, if_true]
        exact inductionHypothesis _ (inverted held start answered nothing) placed
      · simp only [List.isEmpty_iff, nothing, if_false]
        exact (Alike.pure ()).unless

end

end Rendering

end Mustache
