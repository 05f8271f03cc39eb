import Mustache.Proofs.Render.Routine
import Mustache.Proofs.Scope.Alike

/-!
# Runs that count calls

How deep templates call each other may also be counted while they run: a counter goes up when the
instructions of a called template are begun, and down again when they are over, however they ended.
Here nothing but the counter stops a template that calls itself, so that such a run comes to an end
is not evident: it is given fuel, which bounds how long it may go on, and it comes to an end if it
does with any fuel from some amount on (`Counting.Ends`). All calls that are tried are noted, with
how many calls were active at the time.
-/

namespace Mustache

/-- A call of a template that was tried. -/
structure Attempt where
  /-- The name of the template. -/
  name : String
  /-- How many calls were active. -/
  active : Nat
  deriving Repr, DecidableEq

/-- A session, how many calls are active in it, and the calls that were tried. -/
structure Tally (σ : Type) where
  /-- The session. -/
  session : Session σ
  /-- How many calls are active. -/
  active : Nat := 0
  /-- The calls that were tried, first to last. -/
  attempts : List Attempt := []

/-- A step of rendering that counts calls, or runs out of fuel. -/
abbrev Counting (σ : Type) := ExceptT RenderError (StateT (Tally σ) Option)

namespace Counting

variable {σ α β : Type}

/-- A step in which no template is called, as a step of `Counting`. -/
def ofRendering (step : Rendering σ α) : Counting σ α := fun tally =>
  some ((step tally.session).1, { tally with session := (step tally.session).2 })

/-- Notes that a call is tried, and tells how many are active. -/
def attempt (name : String) : Counting σ Nat := fun tally =>
  some (.ok tally.active, { tally with attempts := tally.attempts ++ [⟨name, tally.active⟩] })

/-- A step while one more call is active. -/
def nested (step : Counting σ α) : Counting σ α := fun tally => do
  let (result, after) ← step { tally with active := tally.active + 1 }
  return (result, { after with active := after.active - 1 })

/-- Runs the program that is loaded under a name, unless as many calls are active as may be. -/
def invoke (loader : Loader σ) (name : String) (body : Program → Counting σ Unit) :
    Counting σ Unit := do
  let active ← attempt name
  if active < Rendering.maxDepth then
    let called ← ofRendering (Rendering.load loader name)
    nested (body called)
  else throw (.tooDeep name active)

/-- Runs the instructions of a program from `start` to before `stop`. An instruction takes fuel from
what is run inside of it and after it. -/
def execute (host : Host) (loader : Loader σ) (fuel : Nat) (program : Program) (start stop : Nat)
    (scope : Scope) : Counting σ Unit :=
  match fuel with
  | 0 => fun _ => none
  | fuel + 1 =>
    if start < stop then
      match program.instructions[start]? with
      | none => pure ()
      | some (.literal text) => do
        ofRendering (Rendering.write text.toByteArray)
        execute host loader fuel program (start + 1) stop scope
      | some (.interpolation path escaped) => do
        ofRendering (Rendering.interpolate host path escaped scope)
        execute host loader fuel program (start + 1) stop scope
      | some (.openBlock kind path) =>
        match program.endOf? start with
        | none => throw (.uncompiled (.endless start))
        | some close => do
          let hosts := (← ofRendering (Rendering.resolve host scope path)).frameHosts
          match kind with
          | .iterable =>
            hosts.forM fun inner =>
              execute host loader fuel program (start + 1) close (scope.child inner)
          | .inverted =>
            if hosts.isEmpty then execute host loader fuel program (start + 1) close scope
            else pure ()
          execute host loader fuel program (close + 1) stop scope
      | some .closeBlock => execute host loader fuel program (start + 1) stop scope
      | some (.partialCall name) => do
        invoke loader name fun called =>
          execute host loader fuel called 0 called.instructions.size scope
        execute host loader fuel program (start + 1) stop scope
    else pure ()

/-- Runs a whole program, before which no call is active. -/
def run (host : Host) (loader : Loader σ) (fuel : Nat) (program : Program) (scope : Scope) :
    Counting σ Unit :=
  execute host loader fuel program 0 program.instructions.size scope

/-- A step after another is taken from the tally with which the other one ended, if that did not
fail. -/
theorem bind_apply (step : Counting σ α) (next : α → Counting σ β) (tally : Tally σ) :
    (step >>= next) tally =
      match step tally with
      | none => none
      | some (.error error, after) => some (.error error, after)
      | some (.ok value, after) => next value after := by
  simp only [bind, ExceptT.bind, ExceptT.mk, StateT.bind]
  rcases step tally with _ | ⟨_ | _, _⟩ <;> rfl

/-- With enough fuel a step comes to its end, and it ends in the same way with any more. -/
def Ends (step : Nat → Counting σ α) (tally : Tally σ)
    (outcome : Except RenderError α × Tally σ) : Prop :=
  ∃ enough, ∀ fuel, enough ≤ fuel → step fuel tally = some outcome

namespace Ends

variable {step : Nat → Counting σ α} {next : Nat → α → Counting σ β} {tally after : Tally σ}

/-- A step that needs no fuel comes to its end (`Ends`). -/
theorem of_eq {step : Counting σ α} {outcome : Except RenderError α × Tally σ}
    (ended : step tally = some outcome) : Ends (fun _ => step) tally outcome :=
  ⟨0, fun _ _ => ended⟩

/-- A step that comes to its end (`Ends`) with one more piece of fuel comes to its end. -/
theorem of_succ {outcome : Except RenderError α × Tally σ}
    (ends : Ends (fun fuel => step (fuel + 1)) tally outcome) : Ends step tally outcome := by
  obtain ⟨enough, ended⟩ := ends
  refine ⟨enough + 1, fun fuel bound => ?_⟩
  obtain ⟨less, rfl⟩ := Nat.exists_eq_add_of_le' (Nat.le_of_add_left_le bound)
  exact ended less (Nat.le_of_succ_le_succ bound)

/-- After a step that `Ends` in an error no other one is taken. -/
theorem bind_error {error : RenderError} (first : Ends step tally (.error error, after)) :
    Ends (fun fuel => step fuel >>= next fuel) tally (.error error, after) := by
  obtain ⟨enough, ended⟩ := first
  refine ⟨enough, fun fuel bound => ?_⟩
  refine (bind_apply (step fuel) (next fuel) tally).trans ?_
  rw [ended fuel bound]

/-- Two steps one after the other come to their ends (`Ends`). -/
theorem bind_ok {value : α} {outcome : Except RenderError β × Tally σ}
    (first : Ends step tally (.ok value, after))
    (second : Ends (fun fuel => next fuel value) after outcome) :
    Ends (fun fuel => step fuel >>= next fuel) tally outcome := by
  obtain ⟨enough, ended⟩ := first
  obtain ⟨further, endedNext⟩ := second
  refine ⟨max enough further, fun fuel bound => ?_⟩
  obtain ⟨enoughFuel, furtherFuel⟩ := Nat.max_le.1 bound
  refine (bind_apply (step fuel) (next fuel) tally).trans ?_
  rw [ended fuel enoughFuel]
  exact endedNext fuel furtherFuel

/-- A step while one more call is active (`nested`) leaves as many calls active as before. -/
theorem nested {result : Except RenderError α} {session : Session σ} {attempts : List Attempt}
    (inside : Ends step { tally with active := tally.active + 1 }
      (result, ⟨session, tally.active + 1, attempts⟩)) :
    Ends (fun fuel => Counting.nested (step fuel)) tally
      (result, ⟨session, tally.active, attempts⟩) := by
  obtain ⟨enough, ended⟩ := inside
  refine ⟨enough, fun fuel bound => ?_⟩
  simp only [Counting.nested, ended fuel bound]
  rfl

end Ends

end Counting

end Mustache
