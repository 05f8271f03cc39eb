import Mustache.Proofs.Render.Alike
import Mustache.Proofs.Render.Tree

/-!
# Rendering after something was rendered

What was written before a run does not change what the run writes, and neither do the members of
objects that were found before. So of two programs run one after the other the second leaves
after the first one's output what it would write by itself. Loaders may remember what they were
asked; for those whose answers do not show it the second program can be run from the same start
as the first.
-/

namespace Mustache

/-- Two sinks without a limit, of which the second was written to before. -/
structure Sink.Continues (before : ByteArray) (fresh later : Sink) : Prop where
  /-- The first sink has no limit. -/
  fresh_room : fresh.room = none
  /-- The second sink has no limit. -/
  later_room : later.room = none
  /-- The second sink holds what was written before and what the first one holds. -/
  written : later.written = before ++ fresh.written

/-- What is written to a sink that was written to before continues it. -/
theorem Sink.takeAlike_continues (before : ByteArray) : TakeAlike (Continues before) := by
  intro fresh later start bytes
  rw [write_of_unlimited start.fresh_room, write_of_unlimited start.later_room]
  refine ⟨rfl, rfl, rfl, ?_⟩
  simp only [start.written, ByteArray.append_assoc]

/-- From a state on a loader answers each name in one way, whatever it was asked before. -/
def Loader.Steady {σ : Type} (loader : Loader σ) (loading : σ) : Prop :=
  ∃ (answer : String → Except RenderError Program) (reached : σ → Prop), reached loading ∧
    ∀ name state, reached state →
      (loader.load name state).1 = answer name ∧ reached (loader.load name state).2

/-- How a run into an empty sink ends, and what it wrote. -/
abbrev Outcome := Except RenderError Unit × ByteArray

/-- One outcome and then another, which counts only if the first run came to its end. -/
def Outcome.andThen (first second : Outcome) : Outcome :=
  match first with
  | (.error error, written) => (.error error, written)
  | (.ok (), written) => (second.1, written ++ second.2)

namespace Rendering

variable {σ : Type} (host : Host) (loader : Loader σ) (program : Program) (scope : Scope)
  (accessors : AccessorCache) (loading : σ)

/-- The session after running a program into an empty sink. -/
def sessionAfter : Session σ :=
  (run host loader program scope ⟨{}, accessors, loading⟩).2

/-- How running a program into an empty sink ends, and what it wrote (`Outcome`). -/
def outcome : Outcome :=
  ((run host loader program scope ⟨{}, accessors, loading⟩).1,
    (sessionAfter host loader program scope accessors loading).sink.written)

variable {host loader scope accessors loading}

/-- A session that has written nothing goes on as itself (`Sink.Continues`). -/
theorem continues_start {caches : AccessorCache → AccessorCache → Prop} {states : σ → σ → Prop}
    (accessorsRelated : caches accessors accessors) (loadingRelated : states loading loading) :
    Session.Alongside (Sink.Continues .empty) caches states ⟨{}, accessors, loading⟩
      ⟨{}, accessors, loading⟩ :=
  ⟨⟨rfl, rfl, rfl⟩, accessorsRelated, loadingRelated⟩

/-- Running two programs one after the other has the `outcome` of the first and then that of the
second, run from a state that is related to the one in which the first run ended. -/
theorem outcome_eq_andThen {caches : AccessorCache → AccessorCache → Prop}
    {states : σ → σ → Prop}
    (resolves : ∀ scope path, Alike caches (Scope.resolve host scope path)
      (Scope.resolve host scope path))
    (loads : ∀ name, Alike states (loader.load name) (loader.load name))
    {whole first second : Program}
    (inTwo : run host loader whole scope = (do
      run host loader first scope
      run host loader second scope))
    {freshAccessors : AccessorCache} {freshLoading : σ}
    (goesOn : Session.Alongside
      (Sink.Continues (outcome host loader first scope accessors loading).2) caches states
      ⟨{}, freshAccessors, freshLoading⟩
      (sessionAfter host loader first scope accessors loading)) :
    outcome host loader whole scope accessors loading =
      (outcome host loader first scope accessors loading).andThen
        (outcome host loader second scope freshAccessors freshLoading) := by
  obtain ⟨sameResult, ended⟩ :=
    execute_alike (Sink.takeAlike_continues _) resolves loads 0 second 0
      second.instructions.size scope _ _ goesOn
  have both := bind_apply (run host loader first scope)
    (fun _ => run host loader second scope) ⟨{}, accessors, loading⟩
  simp only [outcome, sessionAfter] at sameResult ended ⊢
  rw [inTwo, both]
  rcases firstRun : run host loader first scope ⟨{}, accessors, loading⟩ with ⟨_ | _, after⟩
  · rfl
  · rw [firstRun] at sameResult ended
    exact Prod.ext sameResult.symm ended.sink.written

/-- Of two programs run one after the other the second has the `outcome` that it has from the state
in which the first one left the session. -/
theorem outcome_eq_andThen_after {whole first second : Program}
    (inTwo : run host loader whole scope = (do
      run host loader first scope
      run host loader second scope)) :
    outcome host loader whole scope accessors loading =
      (outcome host loader first scope accessors loading).andThen
        (outcome host loader second scope
          (sessionAfter host loader first scope accessors loading).accessors
          (sessionAfter host loader first scope accessors loading).loading) := by
  obtain ⟨_, ended⟩ := execute_alike (Sink.takeAlike_continues _)
    (fun scope path => .of_eq (Scope.resolve host scope path))
    (fun name => .of_eq (loader.load name)) 0 first 0 first.instructions.size scope _ _
    (continues_start rfl rfl)
  refine outcome_eq_andThen (fun scope path => .of_eq (Scope.resolve host scope path))
    (fun name => .of_eq (loader.load name)) inTwo ⟨⟨rfl, ended.sink.later_room, ?_⟩, rfl, rfl⟩
  exact ByteArray.append_empty.symm

/-- With a loader whose answers stay the same (`Steady`), of two programs run one after the other
the second has the `outcome` that it has when it is run by itself. -/
theorem outcome_eq_andThen_of_steady {whole first second : Program}
    (inTwo : run host loader whole scope = (do
      run host loader first scope
      run host loader second scope))
    (sound : accessors.Sound host.schema) (steady : loader.Steady loading) :
    outcome host loader whole scope accessors loading =
      (outcome host loader first scope accessors loading).andThen
        (outcome host loader second scope accessors loading) := by
  obtain ⟨answer, reached, start, answers⟩ := steady
  have loads : ∀ name, Alike (fun first second => reached first ∧ reached second)
      (loader.load name) (loader.load name) := by
    rintro name first second ⟨firstReached, secondReached⟩
    obtain ⟨firstAnswer, firstAfter⟩ := answers name first firstReached
    obtain ⟨secondAnswer, secondAfter⟩ := answers name second secondReached
    exact ⟨firstAnswer.trans secondAnswer.symm, firstAfter, secondAfter⟩
  obtain ⟨_, ended⟩ := execute_alike (Sink.takeAlike_continues _) (Scope.resolve_alike host) loads
    0 first 0 first.instructions.size scope _ _ (continues_start ⟨sound, sound⟩ ⟨start, start⟩)
  refine outcome_eq_andThen (Scope.resolve_alike host) loads inTwo
    ⟨⟨rfl, ended.sink.later_room, ?_⟩, ⟨sound, ended.accessors.2⟩, ⟨start, ended.loading.2⟩⟩
  exact ByteArray.append_empty.symm

end Rendering

end Mustache
