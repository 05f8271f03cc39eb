import Mustache.Proofs.Program.Routine
import Mustache.Render.Execute

/-!
# Running routines

What a routine does is told by its structure: one step after another, and for a block its body
once for each frame. `execute_flatten` says that running the instructions of a routine, wherever
they are laid out in a program, is that and then running what comes after them.
-/

namespace Mustache

namespace Rendering

variable {σ : Type} (host : Host) (loader : Loader σ) (depth : Nat)

/-- Writes what a path names, escaped or as it is; what is not there leaves nothing. -/
def interpolate (path : String) (escaped : Bool) (scope : Scope) : Rendering σ Unit := do
  match ← resolve host scope path with
  | .value value => emit host value escaped
  | .empty | .absent => pure ()

/-- Does something for a block over what a path names: once for each frame in a child of the
scope, or, if the block is inverted, once in the scope itself when there is no frame. -/
def overFrames (kind : BlockKind) (path : String) (scope : Scope)
    (body : Scope → Rendering σ Unit) : Rendering σ Unit := do
  let hosts := (← resolve host scope path).frameHosts
  match kind with
  | .iterable => hosts.forM fun inner => body (scope.child inner)
  | .inverted => if hosts.isEmpty then body scope else pure ()

/-- Runs the program that is loaded under a name, one call deeper. -/
def invoke (name : String) (scope : Scope) : Rendering σ Unit :=
  if depth < maxDepth then do
    let called ← load loader name
    execute host loader (depth + 1) called 0 called.instructions.size scope
  else throw (.tooDeep name depth)

/-- What a routine does in a scope, by recursion on its structure; `Rendering.execute` does it by
position. -/
def runRoutine (routine : Routine) (scope : Scope) : Rendering σ Unit :=
  match routine with
  | .done => pure ()
  | .literal text next => do
    write text.toByteArray
    runRoutine next scope
  | .interpolation path escaped next => do
    interpolate host path escaped scope
    runRoutine next scope
  | .block kind path body next => do
    overFrames host kind path scope (runRoutine body)
    runRoutine next scope
  | .partialCall name next => do
    invoke host loader depth name scope
    runRoutine next scope

variable {host loader depth} {program : Program} {start stop : Nat} {scope : Scope}

/-- At the end of a range nothing is left for `execute` to run. -/
theorem execute_of_le (reached : stop ≤ start) :
    execute host loader depth program start stop scope = pure () := by
  rw [execute, dif_neg]
  rintro ⟨inside, _⟩
  exact absurd inside (Nat.not_lt.2 reached)

theorem execute_literal {text : String} (inside : start < stop)
    (present : program.instructions[start]? = some (.literal text)) :
    execute host loader depth program start stop scope = (do
      write text.toByteArray
      execute host loader depth program (start + 1) stop scope) := by
  obtain ⟨bound, present⟩ := Array.getElem?_eq_some_iff.1 present
  rw [execute, dif_pos ⟨inside, bound⟩]
  simp only [present]

theorem execute_interpolation {path : String} {escaped : Bool} (inside : start < stop)
    (present : program.instructions[start]? = some (.interpolation path escaped)) :
    execute host loader depth program start stop scope = (do
      interpolate host path escaped scope
      execute host loader depth program (start + 1) stop scope) := by
  obtain ⟨bound, present⟩ := Array.getElem?_eq_some_iff.1 present
  rw [execute, dif_pos ⟨inside, bound⟩]
  simp only [present, interpolate, bind_assoc]
  congr 1
  funext resolved
  cases resolved <;> rfl

theorem execute_partialCall {name : String} (inside : start < stop)
    (present : program.instructions[start]? = some (.partialCall name)) :
    execute host loader depth program start stop scope = (do
      invoke host loader depth name scope
      execute host loader depth program (start + 1) stop scope) := by
  obtain ⟨bound, present⟩ := Array.getElem?_eq_some_iff.1 present
  rw [execute, dif_pos ⟨inside, bound⟩]
  simp only [present, invoke]
  by_cases shallow : depth < maxDepth
  · rw [dif_pos shallow, if_pos shallow, bind_assoc]
  · rw [dif_neg shallow, if_neg shallow]
    rfl

theorem execute_openBlock {kind : BlockKind} {path : String} {close : Nat}
    (inside : start < stop)
    (present : program.instructions[start]? = some (.openBlock kind path))
    (found : program.endOf? start = some close) :
    execute host loader depth program start stop scope = (do
      overFrames host kind path scope
        (execute host loader depth program (start + 1) close)
      execute host loader depth program (close + 1) stop scope) := by
  obtain ⟨bound, present⟩ := Array.getElem?_eq_some_iff.1 present
  rw [execute, dif_pos ⟨inside, bound⟩]
  simp only [present]
  split
  · next missing =>
    rw [found] at missing
    cases missing
  · next other found' =>
    rw [found, Option.some.injEq] at found'
    subst found'
    simp only [overFrames, bind_assoc]
    congr 1
    funext resolved
    cases kind with
    | iterable => rfl
    | inverted =>
      by_cases empty : resolved.frameHosts.isEmpty = true
      · simp only [if_pos empty]
      · simp only [if_neg empty, pure_bind]

/-- The end of a block is passed over by `execute` where it does not end the range. -/
theorem execute_closeBlock (inside : start < stop)
    (present : program.instructions[start]? = some .closeBlock) :
    execute host loader depth program start stop scope =
      execute host loader depth program (start + 1) stop scope := by
  obtain ⟨bound, present⟩ := Array.getElem?_eq_some_iff.1 present
  rw [execute, dif_pos ⟨inside, bound⟩]
  simp only [present]

/-- A block without an end is not run by `execute`. -/
theorem execute_endless {kind : BlockKind} {path : String} (inside : start < stop)
    (present : program.instructions[start]? = some (.openBlock kind path))
    (missing : program.endOf? start = none) :
    execute host loader depth program start stop scope =
      throw (.uncompiled (.endless start)) := by
  obtain ⟨bound, present⟩ := Array.getElem?_eq_some_iff.1 present
  rw [execute, dif_pos ⟨inside, bound⟩]
  simp only [present]
  split
  · rfl
  · next found =>
    rw [missing] at found
    cases found

/-- Running the instructions of a routine with `execute` is to `runRoutine`, and then to run what
comes after them. -/
theorem execute_flatten (routine : Routine)
    (stands : program.StandsAt start routine.flatten) (inside : start + routine.size ≤ stop) :
    execute host loader depth program start stop scope = (do
      runRoutine host loader depth routine scope
      execute host loader depth program (start + routine.size) stop scope) := by
  induction routine generalizing start stop scope with
  | done =>
    rw [runRoutine, pure_bind, Routine.size_done, Nat.add_zero]
  | literal text next inductionHypothesis =>
    rw [Routine.size_literal, ← Nat.add_assoc, Nat.add_right_comm] at inside ⊢
    rw [execute_literal (by omega) stands.head, inductionHypothesis stands.tail inside,
      runRoutine, bind_assoc]
  | interpolation path escaped next inductionHypothesis =>
    rw [Routine.size_interpolation, ← Nat.add_assoc, Nat.add_right_comm] at inside ⊢
    rw [execute_interpolation (by omega) stands.head, inductionHypothesis stands.tail inside,
      runRoutine, bind_assoc]
  | block kind path body next bodyHypothesis nextHypothesis =>
    have bodyStands := stands.tail.left
    have nextStands := stands.tail.right.tail
    rw [← Routine.size] at nextStands
    have total : start + (Routine.block kind path body next).size =
        start + 1 + body.size + 1 + next.size := by
      rw [Routine.size_block]
      omega
    rw [total] at inside ⊢
    -- The body's range ends where its routine does, so nothing is left to run there.
    have runBody : execute host loader depth program (start + 1) (start + 1 + body.size) =
        runRoutine host loader depth body := by
      funext inner
      rw [bodyHypothesis bodyStands (Nat.le_refl _), execute_of_le (Nat.le_refl _)]
      exact bind_pure_unit
    rw [execute_openBlock (by omega) stands.head stands.endOf?_eq, runBody,
      nextHypothesis nextStands inside, runRoutine, bind_assoc]
  | partialCall name next inductionHypothesis =>
    rw [Routine.size_partialCall, ← Nat.add_assoc, Nat.add_right_comm] at inside ⊢
    rw [execute_partialCall (by omega) stands.head, inductionHypothesis stands.tail inside,
      runRoutine, bind_assoc]

/-- Running a program with `execute` is to `runRoutine` the routine of its instructions. -/
theorem execute_eq_runRoutine (routine : Routine)
    (same : program.instructions.toList = routine.flatten) :
    execute host loader depth program 0 program.instructions.size scope =
      runRoutine host loader depth routine scope := by
  have size : program.instructions.size = 0 + routine.size := by
    rw [Nat.zero_add, Routine.size, ← same, Array.length_toList]
  rw [execute_flatten routine (Program.standsAt_start same) (Nat.le_of_eq size.symm),
    execute_of_le (Nat.le_of_eq size)]
  exact bind_pure_unit

end Rendering

end Mustache
