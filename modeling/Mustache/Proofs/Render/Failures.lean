import Mustache.Proofs.Render.Routine
import Mustache.Proofs.Render.Sink
import Mustache.Proofs.Scope.Alike

/-!
# Why runs fail

The errors with which a run may end: the sink is full, a value never comes, a block has no end,
templates call each other too deep, or the loader has answered with an error. What the single steps
fail with is among these, so it is for whole runs: `Rendering.execute_fails`.
-/

namespace Mustache

/-- An error with which the run of a program may end. -/
inductive RenderError.OfRun {σ : Type} (loader : Loader σ) : RenderError → Prop where
  /-- The output does not fit. -/
  | full : OfRun loader .sinkFull
  /-- A value never comes. -/
  | stalled (stall : Stall) : OfRun loader (.stalled stall)
  /-- A block has no end. -/
  | endless (index : Nat) : OfRun loader (.uncompiled (.endless index))
  /-- Templates call each other too deep. -/
  | tooDeep (name : String) (depth : Nat) : OfRun loader (.tooDeep name depth)
  /-- The loader has answered so. -/
  | refused {name : String} {state : σ} {error : RenderError}
      (answer : (loader.load name state).1 = .error error) : OfRun loader error

/-- A step that fails only with some errors. -/
def FailsWith {ε σ α : Type} (possible : ε → Prop) (step : ExceptT ε (StateM σ) α) : Prop :=
  ∀ state error, (step state).1 = .error error → possible error

namespace FailsWith

variable {ε σ α β : Type} {possible : ε → Prop}

theorem pure (value : α) : FailsWith possible (Pure.pure value : ExceptT ε (StateM σ) α) :=
  fun _ _ failed => nomatch failed

theorem throw {error : ε} (fits : possible error) :
    FailsWith possible (MonadExcept.throw error : ExceptT ε (StateM σ) α) := by
  rintro _ _ ⟨⟩
  exact fits

theorem bind {step : ExceptT ε (StateM σ) α} {next : α → ExceptT ε (StateM σ) β}
    (first : FailsWith possible step) (second : ∀ value, FailsWith possible (next value)) :
    FailsWith possible (step >>= next) := by
  intro state error failed
  rw [bind_apply] at failed
  rcases ran : step state with ⟨other | value, after⟩
  · rw [ran] at failed
    cases failed
    exact first state error (congrArg Prod.fst ran)
  · rw [ran] at failed
    exact second value after error failed

theorem forM {γ : Type} {step : γ → ExceptT ε (StateM σ) PUnit} (items : List γ)
    (each : ∀ item, FailsWith possible (step item)) : FailsWith possible (items.forM step) := by
  induction items with
  | nil => exact pure ()
  | cons item rest inductionHypothesis => exact (each item).bind fun _ => inductionHypothesis

end FailsWith

namespace Rendering

variable {σ : Type} {loader : Loader σ} (host : Host)

theorem write_fails (bytes : ByteArray) :
    FailsWith (RenderError.OfRun loader) (write bytes : Rendering σ Unit) := by
  intro session error failed
  unfold write at failed
  split at failed
  · cases failed
  · cases failed
    exact .full

theorem resolve_fails (scope : Scope) (path : String) :
    FailsWith (RenderError.OfRun loader) (resolve host scope path : Rendering σ Resolved) := by
  intro session error failed
  unfold resolve at failed
  split at failed
  · cases failed
  · cases failed
    exact .stalled _

theorem load_fails (name : String) : FailsWith (RenderError.OfRun loader) (load loader name) := by
  intro session error failed
  unfold load at failed
  split at failed
  · cases failed
  · next answer =>
    cases failed
    exact .refused (congrArg Prod.fst answer)

theorem interpolate_fails (path : String) (escaped : Bool) (scope : Scope) :
    FailsWith (RenderError.OfRun loader)
      (interpolate host path escaped scope : Rendering σ Unit) := by
  refine (resolve_fails host scope path).bind fun resolved => ?_
  cases resolved with
  | value value =>
    simp only [emit_eq_write]
    split
    · exact .throw (.stalled _)
    · exact write_fails _
  | empty | absent => exact .pure ()

theorem overFrames_fails (kind : BlockKind) (path : String) (scope : Scope)
    {body : Scope → Rendering σ Unit}
    (inside : ∀ inner, FailsWith (RenderError.OfRun loader) (body inner)) :
    FailsWith (RenderError.OfRun loader) (overFrames host kind path scope body) := by
  refine (resolve_fails host scope path).bind fun resolved => ?_
  cases kind with
  | iterable => exact .forM _ fun inner => inside (scope.child inner)
  | inverted =>
    simp only
    split
    · exact inside scope
    · exact .pure ()

/-- A run (`execute`) fails only with errors of its own and of the loader (`RenderError.OfRun`). -/
theorem execute_fails (loader : Loader σ) (depth : Nat) (program : Program) (start stop : Nat)
    (scope : Scope) :
    FailsWith (RenderError.OfRun loader) (execute host loader depth program start stop scope) := by
  by_cases inside : start < stop ∧ start < program.instructions.size
  · have present := Array.getElem?_eq_getElem inside.2
    have following := execute_fails loader depth program (start + 1) stop
    cases instruction : program.instructions[start] with
    | literal text =>
      rw [instruction] at present
      rw [execute_literal inside.1 present]
      exact (write_fails _).bind fun _ => following scope
    | interpolation path escaped =>
      rw [instruction] at present
      rw [execute_interpolation inside.1 present]
      exact (interpolate_fails host path escaped scope).bind fun _ => following scope
    | openBlock kind path =>
      rw [instruction] at present
      cases found : program.endOf? start with
      | none =>
        rw [execute_endless inside.1 present found]
        exact .throw (.endless start)
      | some close =>
        have later := Program.lt_of_endOf? found
        rw [execute_openBlock inside.1 present found]
        exact (overFrames_fails host kind path scope
          (execute_fails loader depth program (start + 1) close)).bind fun _ =>
            execute_fails loader depth program (close + 1) stop scope
    | closeBlock =>
      rw [instruction] at present
      rw [execute_closeBlock inside.1 present]
      exact following scope
    | partialCall name =>
      rw [instruction] at present
      rw [execute_partialCall inside.1 present, invoke]
      refine FailsWith.bind ?_ fun _ => following scope
      split
      · exact (load_fails name).bind fun called =>
          execute_fails loader (depth + 1) called 0 called.instructions.size scope
      · exact .throw (.tooDeep name depth)
  · rw [execute, dif_neg inside]
    exact .pure ()
  termination_by (maxDepth - depth, program.instructions.size - start)

end Rendering

end Mustache
