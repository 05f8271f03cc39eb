import Mustache.Proofs.Compile.Comments
import Mustache.Proofs.Program.Matching
import Mustache.Proofs.Render.CallDepth
import Mustache.Proofs.Render.Loads
import Mustache.Proofs.Scope.Noted

/-!
# Runs stay in their blocks

A program is run stretch by stretch: as a whole, and the body of a block by itself each time the
block calls for it. `Watched.execute` runs a stretch and notes which instruction is fetched next and
where the stretch is left. What is carried along is that the rest of a stretch is the layout of a
routine: then every block in it ends in it, so nothing is fetched from outside and no end of a block
is come upon but the one that ends the stretch. `run_confined` says so of every run.
-/

namespace Mustache

open Instruction

/-- Some instructions of a program in a row, from one position to before another one. -/
structure Stretch where
  /-- The program. -/
  program : Program
  /-- The position of the first instruction. -/
  start : Nat
  /-- The position behind the last instruction. -/
  stop : Nat

/-- A whole program. -/
def Stretch.whole (program : Program) : Stretch :=
  ⟨program, 0, program.instructions.size⟩

/-- Stretches that are a whole program or the body of one block. -/
inductive Stretch.IsProper : Stretch → Prop where
  /-- A whole program. -/
  | whole (program : Program) : IsProper (.whole program)
  /-- What stands between an instruction that opens a block and the one that closes it. -/
  | body {program : Program} {opening closing : Nat}
      (partners : Partners program.instructions.toList opening closing) :
      IsProper ⟨program, opening + 1, closing⟩

/-- An instruction may come up at a position of a stretch: it does not close a block, and if it
opens one, the block is closed inside the stretch. -/
def Stretch.Admits (stretch : Stretch) (position : Nat) : Instruction → Prop
  | .closeBlock => False
  | .openBlock _ _ => ∃ close < stretch.stop, stretch.program.endOf? position = some close
  | .literal _ | .interpolation _ _ | .partialCall _ => True

/-- Something that happens when programs are run. -/
inductive Happening where
  /-- In the run of a stretch the instruction at a position is the next. -/
  | fetched (stretch : Stretch) (position : Nat)
  /-- The run of a stretch is over, at a position. -/
  | left (stretch : Stretch) (position : Nat)

/-- Only proper stretches are run. In the run of a stretch only instructions of it come up that may,
and the run is over right behind the last one. -/
def Happening.IsConfined : Happening → Prop
  | .fetched stretch position =>
    stretch.IsProper ∧ stretch.start ≤ position ∧ position < stretch.stop ∧
      ∃ instruction, stretch.program.instructions[position]? = some instruction ∧
        stretch.Admits position instruction
  | .left stretch position => stretch.IsProper ∧ position = stretch.stop

/-- A step of rendering that notes what happens. -/
abbrev Watched (σ : Type) := Noted RenderError (Session σ) Happening

namespace Watched

open Rendering

variable {σ : Type}

/-- Runs the instructions of a stretch from a position on, inside `depth` calls of templates, and
notes what happens. -/
def execute (host : Host) (loader : Loader σ) (depth : Nat) (stretch : Stretch) (position : Nat)
    (scope : Scope) : Watched σ Unit :=
  if position < stretch.stop then do
    Noted.note (.fetched stretch position)
    if inside : position < stretch.program.instructions.size then
      match stretch.program.instructions[position] with
      | .literal text => do
        Noted.of (write text.toByteArray)
        execute host loader depth stretch (position + 1) scope
      | .interpolation path escaped => do
        Noted.of (interpolate host path escaped scope)
        execute host loader depth stretch (position + 1) scope
      | .openBlock kind path =>
        match found : stretch.program.endOf? position with
        | none => throw (.uncompiled (.endless position))
        | some close => do
          have later : position < close := Program.lt_of_endOf? found
          let body : Stretch := ⟨stretch.program, position + 1, close⟩
          let hosts := (← Noted.of (resolve host scope path)).frameHosts
          match kind with
          | .iterable =>
            hosts.forM fun inner =>
              execute host loader depth body (position + 1) (scope.child inner)
          | .inverted =>
            if hosts.isEmpty then execute host loader depth body (position + 1) scope
            else pure ()
          execute host loader depth stretch (close + 1) scope
      | .closeBlock => execute host loader depth stretch (position + 1) scope
      | .partialCall name =>
        if depth < maxDepth then do
          let called ← Noted.of (load loader name)
          execute host loader (depth + 1) (.whole called) 0 scope
          execute host loader depth stretch (position + 1) scope
        else throw (.tooDeep name depth)
    else pure ()
  else Noted.note (.left stretch position)
  termination_by (maxDepth - depth, stretch.program.instructions.size - position)

end Watched

/-- The rest of a proper stretch, from a position on, is the layout of a routine. -/
structure Stretch.Rest (stretch : Stretch) (position : Nat) (routine : Routine) : Prop where
  /-- The stretch is a whole program or the body of a block. -/
  isProper : stretch.IsProper
  /-- The position is not before the stretch. -/
  reached : stretch.start ≤ position
  /-- The routine is laid out from the position on. -/
  stands : stretch.program.StandsAt position routine.flatten
  /-- The routine ends with the stretch. -/
  ends : position + routine.size = stretch.stop

namespace Stretch.Rest

variable {stretch : Stretch} {position : Nat} {routine next inner : Routine}
  {instruction : Instruction} {kind : BlockKind} {path : String}

/-- The instructions of a whole program are the layout of a routine. -/
theorem exists_whole (program : Program) :
    ∃ routine, (Stretch.whole program).Rest 0 routine := by
  obtain ⟨routine, laidOut⟩ := program.exists_routine
  refine ⟨routine, .whole program, Nat.le_refl 0, Program.standsAt_start laidOut, ?_⟩
  rw [Nat.zero_add, Routine.size, ← laidOut, Array.length_toList, Stretch.whole]

/-- Where there is a next instruction the end has not been reached. -/
theorem lt_stop {following : List Instruction} (rest : stretch.Rest position routine)
    (first : routine.flatten = instruction :: following) : position < stretch.stop := by
  have ends := rest.ends
  rw [Routine.size, first, List.length_cons] at ends
  omega

/-- The instruction with which the rest of a stretch begins may be fetched (`IsConfined`). -/
theorem isConfined_fetched {following : List Instruction}
    (rest : stretch.Rest position routine) (first : routine.flatten = instruction :: following)
    (admits : stretch.Admits position instruction) :
    (Happening.fetched stretch position).IsConfined := by
  have stands := rest.stands
  rw [first] at stands
  exact ⟨rest.isProper, rest.reached, rest.lt_stop first, instruction, stands.head, admits⟩

/-- Behind a single instruction the rest goes on. -/
theorem tail (rest : stretch.Rest position routine)
    (first : routine.flatten = instruction :: next.flatten) :
    stretch.Rest (position + 1) next := by
  have stands := rest.stands
  have ends := rest.ends
  rw [first] at stands
  rw [Routine.size, first, List.length_cons, ← Routine.size] at ends
  exact ⟨rest.isProper, rest.reached.trans (Nat.le_succ position), stands.tail, by omega⟩

/-- The end of a block with which the rest of a stretch begins is known by `endOf?`. -/
theorem endOf?_eq (rest : stretch.Rest position (.block kind path inner next)) :
    stretch.program.endOf? position = some (position + 1 + inner.size) :=
  rest.stands.endOf?_eq

/-- A block with which the rest of a stretch begins is closed inside it (`Admits`). -/
theorem admits_openBlock (rest : stretch.Rest position (.block kind path inner next)) :
    stretch.Admits position (.openBlock kind path) := by
  refine ⟨_, ?_, rest.endOf?_eq⟩
  have ends := rest.ends
  rw [Routine.size_block] at ends
  omega

/-- The body of a block with which the rest of a `Stretch` begins is a stretch of its own. -/
theorem body (rest : stretch.Rest position (.block kind path inner next)) :
    Rest ⟨stretch.program, position + 1, position + 1 + inner.size⟩ (position + 1) inner where
  isProper := .body (Program.endOf?_eq_some_iff.1 rest.endOf?_eq)
  reached := Nat.le_refl _
  stands := rest.stands.tail.left
  ends := rfl

/-- Behind a block the rest goes on. -/
theorem behind (rest : stretch.Rest position (.block kind path inner next)) :
    stretch.Rest (position + 1 + inner.size + 1) next where
  isProper := rest.isProper
  reached := by
    have reached := rest.reached
    omega
  stands := rest.stands.tail.right.tail
  ends := by
    have ends := rest.ends
    rw [Routine.size_block] at ends
    omega

end Stretch.Rest

namespace Watched

open Rendering

variable {σ : Type} {host : Host} {loader : Loader σ} {loading : σ} {depth : Nat}
  {stretch : Stretch} {position : Nat} {scope : Scope}

/-- What is to be true of runs: the loader was asked for some names, what happens is confined, and
no block without an end is come upon, unless the loader itself says so. -/
def terms (loader : Loader σ) (loading : σ) :
    Noted.Terms RenderError (Session σ) Happening where
  state session := loader.Reaches loading session.loading
  entry := Happening.IsConfined
  error error := (∀ index, error ≠ .uncompiled (.endless index)) ∨ loader.Refuses loading error

theorem kept_write (bytes : ByteArray) : (terms loader loading).Kept (write bytes) := by
  intro session reached
  unfold write
  rcases session.sink.write bytes with ⟨_ | _, after⟩
  · refine ⟨reached, fun error failed => .inl ?_⟩
    cases failed
    exact fun _ => nofun
  · exact ⟨reached, fun _ failed => nomatch failed⟩

theorem kept_resolve (scope : Scope) (path : String) :
    (terms loader loading).Kept (resolve host scope path) := by
  intro session reached
  unfold resolve
  rcases scope.resolve host path session.accessors with ⟨_ | _, after⟩
  · refine ⟨reached, fun error failed => .inl ?_⟩
    cases failed
    exact fun _ => nofun
  · exact ⟨reached, fun _ failed => nomatch failed⟩

theorem kept_interpolate (path : String) (escaped : Bool) (scope : Scope) :
    (terms loader loading).Kept (interpolate host path escaped scope) := by
  refine (kept_resolve scope path).bind fun resolved => ?_
  cases resolved with
  | value value =>
    simp only
    rw [emit_eq_write]
    cases host.text value with
    | error stall => exact .throw (.inl fun _ => nofun)
    | ok text => exact kept_write _
  | empty | absent => exact .pure ()

theorem kept_load (name : String) : (terms loader loading).Kept (load loader name) := by
  intro session reached
  have reachedAfter := reached.load name
  unfold load
  rcases answer : loader.load name session.loading with ⟨error | program, after⟩
  · rw [answer] at reachedAfter
    refine ⟨reachedAfter, fun other failed => .inr ?_⟩
    cases failed
    exact ⟨session.loading, name, reached, by rw [answer]⟩
  · rw [answer] at reachedAfter
    exact ⟨reachedAfter, fun _ failed => nomatch failed⟩

/-- In the rest of a stretch what happens in `execute` is confined if it is so in the calls of
templates. -/
theorem execute_follows_of_calls {routine : Routine} (rest : stretch.Rest position routine)
    (calls : depth < maxDepth → ∀ called inner, Noted.Follows (terms loader loading)
      (execute host loader (depth + 1) (.whole called) 0 inner)
      (Rendering.execute host loader (depth + 1) called 0 called.instructions.size inner)) :
    Noted.Follows (terms loader loading) (execute host loader depth stretch position scope)
      (Rendering.execute host loader depth stretch.program position stretch.stop scope) := by
  induction routine generalizing stretch position scope with
  | done =>
    obtain ends : position = stretch.stop := rest.ends
    rw [execute, if_neg ends.not_lt, execute_of_le ends.ge]
    exact .note ⟨rest.isProper, ends⟩
  | literal text next inductionHypothesis =>
    have within := rest.lt_stop rfl
    obtain ⟨bound, present⟩ := Array.getElem?_eq_some_iff.1 rest.stands.head
    rw [execute, if_pos within, dif_pos bound, execute_literal within rest.stands.head]
    simp only [present]
    refine .noting (rest.isConfined_fetched rfl trivial) ?_
    exact (Noted.Follows.of (kept_write _)).bind fun _ => inductionHypothesis (rest.tail rfl)
  | interpolation path escaped next inductionHypothesis =>
    have within := rest.lt_stop rfl
    obtain ⟨bound, present⟩ := Array.getElem?_eq_some_iff.1 rest.stands.head
    rw [execute, if_pos within, dif_pos bound, execute_interpolation within rest.stands.head]
    simp only [present]
    refine .noting (rest.isConfined_fetched rfl trivial) ?_
    exact (Noted.Follows.of (kept_interpolate path escaped scope)).bind fun _ =>
      inductionHypothesis (rest.tail rfl)
  | block kind path inner next innerHypothesis nextHypothesis =>
    have within := rest.lt_stop rfl
    obtain ⟨bound, present⟩ := Array.getElem?_eq_some_iff.1 rest.stands.head
    rw [execute, if_pos within, dif_pos bound,
      execute_openBlock within rest.stands.head rest.endOf?_eq]
    simp only [present]
    refine .noting (rest.isConfined_fetched rfl rest.admits_openBlock) ?_
    split
    · next missing =>
      rw [rest.endOf?_eq] at missing
      cases missing
    · next close found =>
      obtain rfl := Option.some.inj (rest.endOf?_eq.symm.trans found)
      rw [overFrames, bind_assoc]
      refine (Noted.Follows.of (kept_resolve scope path)).bind fun resolved => ?_
      cases kind with
      | iterable =>
        exact (Noted.Follows.forM _ fun content => innerHypothesis rest.body).bind fun _ =>
          nextHypothesis rest.behind
      | inverted =>
        by_cases nothing : resolved.frameHosts.isEmpty = true
        · simp only [if_pos nothing]
          exact (innerHypothesis rest.body).bind fun _ => nextHypothesis rest.behind
        · simp only [if_neg nothing, pure_bind]
          exact nextHypothesis rest.behind
  | partialCall name next inductionHypothesis =>
    have within := rest.lt_stop rfl
    obtain ⟨bound, present⟩ := Array.getElem?_eq_some_iff.1 rest.stands.head
    rw [execute, if_pos within, dif_pos bound, execute_partialCall within rest.stands.head]
    simp only [present]
    refine .noting (rest.isConfined_fetched rfl trivial) ?_
    rw [invoke]
    by_cases shallow : depth < maxDepth
    · rw [if_pos shallow, if_pos shallow, bind_assoc]
      exact (Noted.Follows.of (kept_load name)).bind fun called =>
        (calls shallow called scope).bind fun _ => inductionHypothesis (rest.tail rfl)
    · rw [if_neg shallow, if_neg shallow]
      exact .throw (.inl fun _ => nofun)

/-- In the rest of a stretch what happens in `execute` is confined. -/
theorem execute_follows (host : Host) (loader : Loader σ) (loading : σ) (depth : Nat)
    {stretch : Stretch} {position : Nat} {routine : Routine}
    (rest : stretch.Rest position routine) (scope : Scope) :
    Noted.Follows (terms loader loading) (execute host loader depth stretch position scope)
      (Rendering.execute host loader depth stretch.program position stretch.stop scope) := by
  refine execute_follows_of_calls rest fun shallow called inner => ?_
  obtain ⟨whole, standsWhole⟩ := Stretch.Rest.exists_whole called
  exact execute_follows host loader loading (depth + 1) standsWhole inner
  termination_by maxDepth - depth

end Watched

namespace Compiler

/-- The loaders of compilers never answer that the end of a block is not known (`Loader.Refuses`).
-/
theorem not_refuses_endless (compiler : Compiler) (templates : TemplateSource) (library : Library)
    (index : Nat) :
    ¬ (compiler.loader templates).Refuses library (.uncompiled (.endless index)) := by
  rintro ⟨state, name, -, answer⟩
  simp only [loader, bind_apply] at answer
  rcases ran : compiler.load templates name state with ⟨error | _, _⟩
  · rw [ran] at answer
    cases answer
    obtain ⟨_, ⟨⟩⟩ | ⟨_, _, ⟨⟩⟩ | ⟨_, ⟨⟩, _, _, compiles⟩ := load_eq_error (congrArg Prod.fst ran)
    obtain ⟨_, ⟨⟩⟩ | ⟨_, _, ⟨⟩⟩ := compile_eq_error compiles
  · rw [ran] at answer
    cases answer

end Compiler

/-- Running a program never leaves its blocks. For every program, loader and scope the run can be
watched (`Watched.execute`), and whatever is run then, the program itself or what it calls, is a
whole program or the body of one block; the next instruction is always one inside of it and never
the end of a block; a block is entered only if it is closed inside, too; and where the run of a
stretch is over, it has come to the end of the stretch. So no run fails for a block without an end,
unless the loader itself answers so, and the loaders of compilers do not. -/
theorem run_confined {σ : Type} (host : Host) (loader : Loader σ) (program : Program)
    (scope : Scope) (session : Session σ) :
    (∃ happenings,
      Watched.execute host loader 0 (.whole program) 0 scope (session, []) =
        ((Rendering.run host loader program scope session).1,
          ((Rendering.run host loader program scope session).2, happenings)) ∧
      ∀ happening ∈ happenings, happening.IsConfined) ∧
    (∀ index, (Rendering.run host loader program scope session).1 =
        .error (.uncompiled (.endless index)) →
      loader.Refuses session.loading (.uncompiled (.endless index))) ∧
    ∀ (compiler : Compiler) (templates : TemplateSource) (session : Session Library) (index : Nat),
      (Rendering.run host (compiler.loader templates) program scope session).1 ≠
        .error (.uncompiled (.endless index)) := by
  obtain ⟨routine, rest⟩ := Stretch.Rest.exists_whole program
  have endless : ∀ {τ : Type} (loader : Loader τ) (session : Session τ) (index : Nat),
      (Rendering.run host loader program scope session).1 = .error (.uncompiled (.endless index)) →
        loader.Refuses session.loading (.uncompiled (.endless index)) := by
    intro τ loader session index failed
    have follows := Watched.execute_follows host loader session.loading 0 rest scope
    rcases (follows.kept session .refl).2 _ failed with other | refuses
    · exact absurd rfl (other index)
    · exact refuses
  refine ⟨?_, endless loader session, fun compiler templates session index failed => ?_⟩
  · have follows := Watched.execute_follows host loader session.loading 0 rest scope
    exact follows.notes session [] .refl
  · exact compiler.not_refuses_endless templates session.loading index
      (endless _ session index failed)

end Mustache
