import Mustache.Proofs.Render.Routine
import Mustache.Proofs.Render.Sink
import Mustache.Proofs.Scope.Alike
import Mathlib.Data.List.Forall2

/-!
# Runs in lockstep

Which instruction comes next depends on the program, not on what its instructions do.
`Actions.perform` goes through a program and takes what each instruction does from outside;
`Rendering.execute_eq_perform` says that running a program is that, with the steps of rendering.
So runs of one program that do different things can be compared instruction by instruction:
`Actions.RelatedFor.perform` carries over to whole runs whatever relation holds for what is done at
one instruction and survives that one thing is done after another; it may be one that only holds
for some instructions, as long as programs and what they call consist of these.
-/

namespace Mustache

/-- A relation between what two runs do that holds of doing nothing and is kept when one thing is
done after another. -/
structure Composes {m n : Type → Type} [Monad m] [Monad n] (related : m Unit → n Unit → Prop) :
    Prop where
  /-- Doing nothing is related. -/
  done : related (pure ()) (pure ())
  /-- What is related may be done one after the other. -/
  andThen : ∀ {first firstRight second secondRight}, related first firstRight →
    related second secondRight →
    related (first >>= fun _ => second) (firstRight >>= fun _ => secondRight)

namespace Composes

variable {m n : Type → Type} [Monad m] [Monad n] {related : m Unit → n Unit → Prop} {α β : Type}
  {items : α → β → Prop} {lefts : List α} {rights : List β} {left : α → m Unit}
  {right : β → n Unit}

/-- Steps that answer alike unless they are excused compose. -/
theorem alikeUnless {ε σ τ : Type} {excused : ε → Prop} {states : σ → τ → Prop} :
    Composes (AlikeUnless excused states :
      ExceptT ε (StateM σ) Unit → ExceptT ε (StateM τ) Unit → Prop) :=
  ⟨(Alike.pure ()).unless, fun first second => first.bind_of_result fun _ _ _ _ _ => second⟩

/-- What `Composes` and is related for items that belong together may be done for all of them. -/
theorem forM (composes : Composes related) (all : List.Forall₂ items lefts rights)
    (each : ∀ first second, items first second → related (left first) (right second)) :
    related (lefts.forM left) (rights.forM right) := by
  induction all with
  | nil => exact composes.done
  | cons first _ inductionHypothesis =>
    exact composes.andThen (each _ _ first) inductionHypothesis

/-- What a block does for its frames, or without any, is related if its body is and what is related
`Composes`. -/
theorem overHosts (composes : Composes related) (kind : BlockKind)
    (all : List.Forall₂ items lefts rights)
    (each : ∀ first second, items first second → related (left first) (right second))
    {without : m Unit} {withoutRight : n Unit} (same : related without withoutRight) :
    related
      (match kind with
        | .iterable => lefts.forM left
        | .inverted => if lefts.isEmpty then without else pure ())
      (match kind with
        | .iterable => rights.forM right
        | .inverted => if rights.isEmpty then withoutRight else pure ()) := by
  cases kind with
  | iterable => exact composes.forM all each
  | inverted =>
    cases all with
    | nil => exact same
    | cons => exact composes.done

end Composes

/-- Every instruction of a program is among those `allowed`. -/
def Program.Only (allowed : Instruction → Prop) (program : Program) : Prop :=
  ∀ instruction ∈ program.instructions, allowed instruction

/-- What is done at the single instructions of a program. -/
structure Actions (m : Type → Type) where
  /-- What is done for a literal text. -/
  literal : String → m Unit
  /-- What is done for a path whose value is to be written, escaped or as it is. -/
  interpolation : String → Bool → Scope → m Unit
  /-- What is done for a block over a path, given what its body does in a scope. -/
  block : BlockKind → String → Scope → (Scope → m Unit) → m Unit
  /-- What is done for a call of a template, given what the program found for it does. -/
  call : String → (Program → m Unit) → m Unit
  /-- What is done where there is no way on. -/
  fail : RenderError → m Unit

namespace Actions

variable {m n : Type → Type} [Monad m] [Monad n]

/-- Goes through the instructions of a program from `start` to before `stop`, inside `depth` calls
of templates. -/
def perform (actions : Actions m) (depth : Nat) (program : Program) (start stop : Nat)
    (scope : Scope) : m Unit :=
  if inside : start < stop ∧ start < program.instructions.size then
    match program.instructions[start] with
    | .literal text => do
      actions.literal text
      perform actions depth program (start + 1) stop scope
    | .interpolation path escaped => do
      actions.interpolation path escaped scope
      perform actions depth program (start + 1) stop scope
    | .openBlock kind path =>
      match found : program.endOf? start with
      | none => actions.fail (.uncompiled (.endless start))
      | some close => do
        have later : start < close := Program.lt_of_endOf? found
        actions.block kind path scope fun inner =>
          perform actions depth program (start + 1) close inner
        perform actions depth program (close + 1) stop scope
    | .closeBlock => perform actions depth program (start + 1) stop scope
    | .partialCall name =>
      if depth < Rendering.maxDepth then do
        actions.call name fun called =>
          perform actions (depth + 1) called 0 called.instructions.size scope
        perform actions depth program (start + 1) stop scope
      else actions.fail (.tooDeep name depth)
  else pure ()
  termination_by (Rendering.maxDepth - depth, program.instructions.size - start)

/-- Two ways of doing what instructions say of which everything that can happen at an instruction
is related, if what happens inside of it is; `scopes` relates the scopes of the two runs. -/
structure Related (scopes : Scope → Scope → Prop) (related : m Unit → n Unit → Prop)
    (left : Actions m) (right : Actions n) : Prop where
  /-- Doing nothing is related. -/
  done : related (pure ()) (pure ())
  /-- What is related may be done one after the other. -/
  andThen : ∀ {first firstRight second secondRight}, related first firstRight →
    related second secondRight →
    related (first >>= fun _ => second) (firstRight >>= fun _ => secondRight)
  /-- What is done for literal texts is related. -/
  literal : ∀ text, related (left.literal text) (right.literal text)
  /-- What is done for paths whose values are written is related. -/
  interpolation : ∀ path escaped {scope other}, scopes scope other →
    related (left.interpolation path escaped scope) (right.interpolation path escaped other)
  /-- What is done for blocks is related if what their bodies do is. -/
  block : ∀ kind path {scope other}, scopes scope other → ∀ {body bodyRight},
    (∀ {inner innerRight}, scopes inner innerRight →
      related (body inner) (bodyRight innerRight)) →
    related (left.block kind path scope body) (right.block kind path other bodyRight)
  /-- What is done for calls is related if what every program does is. -/
  call : ∀ name {run runRight}, (∀ called, related (run called) (runRight called)) →
    related (left.call name run) (right.call name runRight)
  /-- Failures are related. -/
  fail : ∀ error, related (left.fail error) (right.fail error)

/-- As `Related`, for programs whose instructions are all among those `allowed`. Nothing is said of
what is done for other instructions, and a call may rely on finding such a program. -/
structure RelatedFor (allowed : Instruction → Prop) (scopes : Scope → Scope → Prop)
    (related : m Unit → n Unit → Prop) (left : Actions m) (right : Actions n) : Prop where
  /-- What is related may be put together. -/
  composes : Composes related
  /-- What is done for literal texts is related. -/
  literal : ∀ text, allowed (.literal text) → related (left.literal text) (right.literal text)
  /-- What is done for paths whose values are written is related. -/
  interpolation : ∀ path escaped, allowed (.interpolation path escaped) → ∀ {scope other},
    scopes scope other →
    related (left.interpolation path escaped scope) (right.interpolation path escaped other)
  /-- What is done for blocks is related if what their bodies do is. -/
  block : ∀ kind path, allowed (.openBlock kind path) → ∀ {scope other}, scopes scope other →
    ∀ {body bodyRight},
    (∀ {inner innerRight}, scopes inner innerRight →
      related (body inner) (bodyRight innerRight)) →
    related (left.block kind path scope body) (right.block kind path other bodyRight)
  /-- What is done for calls is related if what every program of allowed instructions does is. -/
  call : ∀ name, allowed (.partialCall name) → ∀ {run runRight},
    (∀ called : Program, called.Only allowed → related (run called) (runRight called)) →
    related (left.call name run) (right.call name runRight)
  /-- Failures are related. -/
  fail : ∀ error, related (left.fail error) (right.fail error)

variable {allowed : Instruction → Prop} {scopes : Scope → Scope → Prop}
  {related : m Unit → n Unit → Prop} {left : Actions m} {right : Actions n}

/-- What is related for all instructions is so for those of any kind. -/
theorem Related.relatedFor (alike : Related scopes related left right) :
    RelatedFor (fun _ => True) scopes related left right where
  composes := ⟨alike.done, alike.andThen⟩
  literal text _ := alike.literal text
  interpolation path escaped _ _ _ same := alike.interpolation path escaped same
  block kind path _ _ _ same _ _ bodies := alike.block kind path same bodies
  call name _ _ _ runs := alike.call name fun called => runs called fun _ _ => trivial
  fail := alike.fail

/-- What is `RelatedFor` every single instruction is related for whole programs, also if the second
one is run inside fewer calls of templates, as long as failing for being too deep is then related to
everything. -/
theorem RelatedFor.perform_of_le (alike : RelatedFor allowed scopes related left right)
    {depth shallower : Nat} (bound : shallower ≤ depth)
    (excuse : shallower < depth → ∀ name reached step,
      related (left.fail (.tooDeep name reached)) step)
    (program : Program) (only : program.Only allowed) (start stop : Nat) {scope other : Scope}
    (same : scopes scope other) :
    related (left.perform depth program start stop scope)
      (right.perform shallower program start stop other) := by
  rw [perform.eq_def left, perform.eq_def right]
  split
  · next inside =>
    have following := alike.perform_of_le bound excuse program only (start + 1) stop same
    have permitted := only program.instructions[start] (Array.getElem_mem inside.2)
    cases instruction : program.instructions[start] with
    | literal text =>
      rw [instruction] at permitted
      exact alike.composes.andThen (alike.literal text permitted) following
    | interpolation path escaped =>
      rw [instruction] at permitted
      exact alike.composes.andThen (alike.interpolation path escaped permitted same) following
    | openBlock kind path =>
      rw [instruction] at permitted
      simp only
      split
      · exact alike.fail _
      · next close found =>
        have later := Program.lt_of_endOf? found
        exact alike.composes.andThen
          (alike.block kind path permitted same fun inner =>
            alike.perform_of_le bound excuse program only (start + 1) close inner)
          (alike.perform_of_le bound excuse program only (close + 1) stop same)
    | closeBlock => exact following
    | partialCall name =>
      rw [instruction] at permitted
      simp only
      by_cases shallow : depth < Rendering.maxDepth
      · rw [if_pos shallow, if_pos (Nat.lt_of_le_of_lt bound shallow)]
        exact alike.composes.andThen
          (alike.call name permitted fun called onlyCalled =>
            alike.perform_of_le (Nat.succ_le_succ bound)
              (fun less => excuse (Nat.lt_of_succ_lt_succ less)) called onlyCalled 0
              called.instructions.size same)
          following
      · rw [if_neg shallow]
        obtain less | rfl := Nat.lt_or_eq_of_le bound
        · exact excuse less name depth _
        · rw [if_neg shallow]
          exact alike.fail _
  · exact alike.composes.done
  termination_by (Rendering.maxDepth - depth, program.instructions.size - start)

/-- What is `RelatedFor` every single instruction of some is related for whole programs of them, by
`perform`. -/
theorem RelatedFor.perform (alike : RelatedFor allowed scopes related left right) (depth : Nat)
    (program : Program) (only : program.Only allowed) (start stop : Nat) {scope other : Scope}
    (same : scopes scope other) :
    related (left.perform depth program start stop scope)
      (right.perform depth program start stop other) :=
  alike.perform_of_le (Nat.le_refl depth) (fun less => absurd less (Nat.lt_irrefl depth)) program
    only start stop same

/-- What is `Related` at every single instruction is related for all programs, by `perform`. -/
theorem Related.perform (alike : Related scopes related left right) (depth : Nat)
    (program : Program) (start stop : Nat) {scope other : Scope} (same : scopes scope other) :
    related (left.perform depth program start stop scope)
      (right.perform depth program start stop other) :=
  alike.relatedFor.perform depth program (fun _ _ => trivial) start stop same

end Actions

namespace Rendering

variable {σ τ : Type}

/-- What is done at the single instructions when a program is rendered (`Rendering.execute`). -/
def actions (host : Host) (loader : Loader σ) : Actions (Rendering σ) where
  literal text := write text.toByteArray
  interpolation := interpolate host
  block := overFrames host
  call name run := do
    let called ← load loader name
    run called
  fail error := throw error

/-- Running a program with `execute` is going through its instructions (`perform`) with the steps of
rendering. -/
theorem execute_eq_perform (host : Host) (loader : Loader σ) (depth : Nat) (program : Program)
    (start stop : Nat) (scope : Scope) :
    execute host loader depth program start stop scope =
      (actions host loader).perform depth program start stop scope := by
  by_cases inside : start < stop ∧ start < program.instructions.size
  · have present := Array.getElem?_eq_getElem inside.2
    have following := execute_eq_perform host loader depth program (start + 1) stop scope
    rw [Actions.perform, dif_pos inside]
    cases instruction : program.instructions[start] with
    | literal text =>
      rw [instruction] at present
      rw [execute_literal inside.1 present, following]
      rfl
    | interpolation path escaped =>
      rw [instruction] at present
      rw [execute_interpolation inside.1 present, following]
      rfl
    | openBlock kind path =>
      rw [instruction] at present
      simp only
      split
      · next missing => exact execute_endless inside.1 present missing
      · next close found =>
        have later := Program.lt_of_endOf? found
        have body : execute host loader depth program (start + 1) close =
            (actions host loader).perform depth program (start + 1) close := by
          funext inner
          exact execute_eq_perform host loader depth program (start + 1) close inner
        rw [execute_openBlock inside.1 present found, body,
          execute_eq_perform host loader depth program (close + 1) stop scope]
        rfl
    | closeBlock =>
      rw [instruction] at present
      rw [execute_closeBlock inside.1 present, following]
    | partialCall name =>
      rw [instruction] at present
      rw [execute_partialCall inside.1 present, invoke, following]
      by_cases shallow : depth < maxDepth
      · have whole : ∀ called : Program,
            execute host loader (depth + 1) called 0 called.instructions.size scope =
              (actions host loader).perform (depth + 1) called 0 called.instructions.size scope :=
          fun called =>
            execute_eq_perform host loader (depth + 1) called 0 called.instructions.size scope
        simp only [if_pos shallow, whole]
        rfl
      · simp only [if_neg shallow]
        rfl
  · rw [execute, dif_neg inside, Actions.perform, dif_neg inside]
  termination_by (maxDepth - depth, program.instructions.size - start)

/-- What is `RelatedFor` the steps of rendering at some instructions is related for the runs of
programs that consist of these, also if the second one is inside fewer calls of templates, as long
as failing for being too deep is then related to everything. -/
theorem execute_relatedFor_of_le {allowed : Instruction → Prop} {scopes : Scope → Scope → Prop}
    {related : Rendering σ Unit → Rendering τ Unit → Prop} {host other : Host}
    {loader : Loader σ} {otherLoader : Loader τ}
    (alike : Actions.RelatedFor allowed scopes related (actions host loader)
      (actions other otherLoader))
    {depth shallower : Nat} (bound : shallower ≤ depth)
    (excuse : shallower < depth → ∀ name reached step,
      related (throw (.tooDeep name reached)) step)
    (program : Program) (only : program.Only allowed) (start stop : Nat)
    {scope otherScope : Scope} (same : scopes scope otherScope) :
    related (execute host loader depth program start stop scope)
      (execute other otherLoader shallower program start stop otherScope) := by
  rw [execute_eq_perform, execute_eq_perform]
  exact alike.perform_of_le bound excuse program only start stop same

/-- What is `RelatedFor` the steps of rendering at some instructions is related for the runs of
programs that consist of these. -/
theorem execute_relatedFor {allowed : Instruction → Prop} {scopes : Scope → Scope → Prop}
    {related : Rendering σ Unit → Rendering τ Unit → Prop} {host other : Host}
    {loader : Loader σ} {otherLoader : Loader τ}
    (alike : Actions.RelatedFor allowed scopes related (actions host loader)
      (actions other otherLoader))
    (depth : Nat) (program : Program) (only : program.Only allowed) (start stop : Nat)
    {scope otherScope : Scope} (same : scopes scope otherScope) :
    related (execute host loader depth program start stop scope)
      (execute other otherLoader depth program start stop otherScope) :=
  execute_relatedFor_of_le alike (Nat.le_refl depth) (fun less => absurd less (Nat.lt_irrefl depth))
    program only start stop same

/-- What is `Related` for every step of rendering is related for the runs of a program. -/
theorem execute_related {scopes : Scope → Scope → Prop}
    {related : Rendering σ Unit → Rendering τ Unit → Prop} {host other : Host}
    {loader : Loader σ} {otherLoader : Loader τ}
    (alike : Actions.Related scopes related (actions host loader) (actions other otherLoader))
    (depth : Nat) (program : Program) (start stop : Nat) {scope otherScope : Scope}
    (same : scopes scope otherScope) :
    related (execute host loader depth program start stop scope)
      (execute other otherLoader depth program start stop otherScope) :=
  execute_relatedFor alike.relatedFor depth program (fun _ _ => trivial) start stop same

end Rendering

end Mustache
