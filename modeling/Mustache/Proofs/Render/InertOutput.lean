import Mustache.Proofs.Render.EscapedText
import Mustache.Proofs.Render.Lockstep
import Mustache.Proofs.Render.Sink

/-!
# Output without markup

A template that writes all values escaped and has no markup in its own texts makes no markup,
whatever the data is. Something that is true of a session before a step and after it is kept by
the step; what the single steps of rendering keep, whole runs keep. That the output so far is a text
of some kind is kept if every single text is of the kind that a template adds (`Spells.actions`), so
an inert text is written wherever the run of such a template ends: `run_written_inert`.
-/

namespace Mustache

/-- Instructions that bring no markup by themselves: values are written escaped, and there are no
special characters in texts. -/
def Instruction.IsHarmless : Instruction → Prop
  | .literal text => ∀ character ∈ Escape.specials, character ∉ text.toList
  | .interpolation _ escaped => escaped = true
  | .openBlock _ _ | .closeBlock | .partialCall _ => True

namespace Loader

variable {σ : Type}

/-- The states that a loader can come to by being asked for names. -/
inductive Reaches (loader : Loader σ) (start : σ) : σ → Prop
  | refl : Reaches loader start start
  | load {state : σ} (prior : Reaches loader start state) (name : String) :
      Reaches loader start (loader.load name state).2

/-- A program that a loader can answer with, now or after it was asked for other names (`Reaches`).
-/
def CanReturn (loader : Loader σ) (start : σ) (program : Program) : Prop :=
  ∃ state name, loader.Reaches start state ∧ (loader.load name state).1 = .ok program

end Loader

namespace Rendering

variable {σ α β : Type}

/-- Something that holds of a session still holds after a step. -/
def Keeps (holds : Session σ → Prop) (step : Rendering σ α) : Prop :=
  ∀ session, holds session → holds (step session).2

namespace Keeps

variable {holds : Session σ → Prop}

theorem pure (value : α) : Keeps holds (Pure.pure value) :=
  fun _ held => held

theorem throw (error : RenderError) : Keeps holds (MonadExcept.throw error : Rendering σ α) :=
  fun _ held => held

/-- What a step `Keeps` is there for the next one, which is taken only where the step did not fail.
-/
theorem bind_of_result {step : Rendering σ α} {next : α → Rendering σ β} (first : Keeps holds step)
    (second : ∀ value session after, holds session → step session = (.ok value, after) →
      Keeps holds (next value)) : Keeps holds (step >>= next) := by
  intro session held
  have kept := first session held
  rw [bind_apply]
  rcases ran : step session with ⟨_ | value, after⟩
  · rw [ran] at kept
    exact kept
  · rw [ran] at kept
    exact second value session after held ran after kept

/-- Steps of which each `Keeps` something may follow each other. -/
theorem bind {step : Rendering σ α} {next : α → Rendering σ β} (first : Keeps holds step)
    (second : ∀ value, Keeps holds (next value)) : Keeps holds (step >>= next) :=
  first.bind_of_result fun value _ _ _ _ => second value

/-- Steps of which each `Keeps` something compose. -/
theorem composes :
    Composes fun (step _ : Rendering σ Unit) => Keeps holds step :=
  ⟨pure (), fun first second => first.bind fun _ => second⟩

/-- A step that `Keeps` something may be repeated for each of some items. -/
theorem forM {γ : Type} {step : γ → Rendering σ PUnit} (items : List γ)
    (each : ∀ item, Keeps holds (step item)) : Keeps holds (items.forM step) := by
  induction items with
  | nil => exact pure ()
  | cons item rest inductionHypothesis => exact (each item).bind fun _ => inductionHypothesis

/-- What a path names is found by `resolve` without touching anything but the members of objects. -/
theorem resolve (members : ∀ session accessors, holds session →
      holds { session with accessors := accessors })
    (host : Host) (scope : Scope) (path : String) :
    Keeps holds (Rendering.resolve host scope path) := by
  intro session held
  unfold Rendering.resolve
  split <;> exact members session _ held

end Keeps

/-- The output so far is a text of some kind in a sink without a limit, and the loader is in a state
that it can come to. -/
structure Spells (kind : List Char → Prop) (loader : Loader σ) (start : σ) (session : Session σ) :
    Prop where
  /-- The sink has no limit. -/
  unlimited : session.sink.room = none
  /-- What was written is a text of the kind. -/
  written : ∃ text : String, session.sink.written = text.toByteArray ∧ kind text.toList
  /-- The loader was asked for some names. -/
  reached : loader.Reaches start session.loading

namespace Spells

variable {kind : List Char → Prop} {loader : Loader σ} {start : σ} (host : Host)

theorem keeps_resolve (scope : Scope) (path : String) :
    Keeps (Spells kind loader start) (resolve host scope path) :=
  .resolve (fun _ _ held => ⟨held.unlimited, held.written, held.reached⟩) host scope path

theorem keeps_load (name : String) : Keeps (Spells kind loader start) (load loader name) := by
  intro session held
  have reached := held.reached.load name
  unfold load
  rcases answer : loader.load name session.loading with ⟨_ | _, after⟩
  all_goals
    rw [answer] at reached
    exact ⟨held.unlimited, held.written, reached⟩

section Join

variable (join : ∀ {first second}, kind first → kind second → kind (first ++ second))

include join

/-- Writing a text of the kind adds it to the output. -/
theorem keeps_write {text : String} (fits : kind text.toList) :
    Keeps (Spells kind loader start) (write text.toByteArray) := by
  intro session held
  obtain ⟨before, output, fitsBefore⟩ := held.written
  rw [write, Sink.write_of_unlimited held.unlimited]
  refine ⟨rfl, ⟨before ++ text, ?_, ?_⟩, held.reached⟩
  · rw [output, String.toByteArray_append]
  · rw [String.toList_append]
    exact join fitsBefore fits

/-- Writing a value with `emit` adds its text, perhaps escaped, to the output. -/
theorem keeps_emit (value : Value) (escaped : Bool)
    (fits : ∀ text : String, kind (if escaped then Escape.escape text else text).toList) :
    Keeps (Spells kind loader start) (emit host value escaped) := by
  rw [emit_eq_write]
  split
  · exact .throw _
  · next text _ =>
    have whole : Keeps (Spells kind loader start) _ := keeps_write join (fits text)
    cases escaped with
    | false => exact whole
    | true => rwa [if_pos rfl, Escape.escapeBytes_toByteArray]

/-- What is done at an instruction that only adds texts of the kind keeps the output of the kind if
what happens inside of it does. -/
theorem actions {allowed : Instruction → Prop}
    (literals : ∀ text : String, allowed (.literal text) → kind text.toList)
    (values : ∀ path escaped, allowed (.interpolation path escaped) →
      ∀ text : String, kind (if escaped then Escape.escape text else text).toList)
    (calls : ∀ called, loader.CanReturn start called → called.Only allowed) :
    Actions.RelatedFor allowed Eq (fun step _ => Keeps (Spells kind loader start) step)
      (Rendering.actions host loader) (Rendering.actions host loader) where
  composes := Keeps.composes
  literal text among := keeps_write join (literals text among)
  interpolation path escaped among scope _ _ := by
    refine (keeps_resolve host scope path).bind fun resolved => ?_
    cases resolved with
    | value value => exact keeps_emit host join value escaped (values path escaped among)
    | empty | absent => exact .pure ()
  block blockKind path _ scope _ same body _ bodies := by
    refine (keeps_resolve host scope path).bind fun resolved => ?_
    cases blockKind with
    | iterable => exact .forM _ fun inner => @bodies (scope.child inner) _ rfl
    | inverted =>
      simp only
      split
      · exact @bodies scope _ rfl
      · exact .pure ()
  call name _ run _ runs := by
    refine (keeps_load name).bind_of_result fun called session after held loaded => ?_
    refine runs called (calls called ⟨session.loading, name, held.reached, ?_⟩)
    unfold load at loaded
    split at loaded <;> cases loaded
    next found => rw [found]
  fail error := .throw error

/-- Wherever the run of a program comes to its end whose instructions, and those of what it calls,
only add texts of a kind, it has written a text of the kind. -/
theorem run_written {allowed : Instruction → Prop} (nothing : kind [])
    (literals : ∀ text : String, allowed (.literal text) → kind text.toList)
    (values : ∀ path escaped, allowed (.interpolation path escaped) →
      ∀ text : String, kind (if escaped then Escape.escape text else text).toList)
    (calls : ∀ called, loader.CanReturn start called → called.Only allowed)
    (program : Program) (only : program.Only allowed) (scope : Scope)
    (accessors : AccessorCache) :
    Spells kind loader start (run host loader program scope ⟨{}, accessors, start⟩).2 := by
  have keeps : Keeps (Spells kind loader start) (run host loader program scope) :=
    execute_relatedFor (actions host join literals values calls) 0 program only 0
      program.instructions.size rfl
  exact keeps _ ⟨rfl, ⟨"", rfl, nothing⟩, .refl⟩

end Join

end Spells

/-- A program whose values are all written escaped and whose texts have no special characters
(`Instruction.IsHarmless`), and which calls only such programs, makes an inert text of any data:
there are no angle brackets and no quotes in its output, and every ampersand begins an entity. This
is so wherever the run comes to its end, also at a call that fails. -/
theorem run_written_inert (host : Host) (loader : Loader σ) (program : Program) (scope : Scope)
    (accessors : AccessorCache) (loading : σ) (harmless : program.Only Instruction.IsHarmless)
    (harmlessCalls : ∀ called, loader.CanReturn loading called →
      called.Only Instruction.IsHarmless) :
    ∃ text : String,
      (run host loader program scope ⟨{}, accessors, loading⟩).2.sink.written = text.toByteArray ∧
      Escape.IsInert text.toList := by
  refine (Spells.run_written host .append (.of_free fun _ _ => List.not_mem_nil)
    (fun _ free => .of_free free) (fun path escaped isEscaped text => ?_) harmlessCalls program
    harmless scope accessors).written
  obtain rfl : escaped = true := isEscaped
  exact Escape.isInert_escape text

/-- A value of special characters before a call of a template that itself calls one that is not
there. -/
theorem run_written_inert_missing :
    let called : Program := ⟨#[.literal "!", .partialCall "gone"], #[none, none], _, rfl, rfl⟩
    let program : Program :=
      ⟨#[.interpolation "v" true, .partialCall "p"], #[none, none], _, rfl, rfl⟩
    let loader : Loader Unit :=
      ⟨fun name => if name = "p" then pure called else throw (.templateNotFound name name)⟩
    let host := Host.ofSchema []
    let scope := Scope.root (.ofHost (.map [("v", .str "<&>")]))
    let ended := run host loader program scope ⟨{}, {}, ()⟩
    program.Only Instruction.IsHarmless ∧
      (∀ other, loader.CanReturn () other → other.Only Instruction.IsHarmless) ∧
      ended.1 = .error (.templateNotFound "gone" "gone") ∧
      ended.2.sink.written = "&lt;&amp;&gt;!".toByteArray ∧
      ∃ text : String, ended.2.sink.written = text.toByteArray ∧ Escape.IsInert text.toList := by
  intro called program loader host scope ended
  have harmless : program.Only Instruction.IsHarmless := by
    intro instruction member
    simp only [program, List.mem_toArray, List.mem_cons, List.not_mem_nil, or_false] at member
    rcases member with rfl | rfl
    · rfl
    · trivial
  have harmlessCalls : ∀ other, loader.CanReturn () other →
      other.Only Instruction.IsHarmless := by
    rintro other ⟨_, name, _, answer⟩ instruction member
    have found : other = called := by
      simp only [loader] at answer
      split at answer <;> cases answer
      rfl
    rw [found] at member
    simp only [called, List.mem_toArray, List.mem_cons, List.not_mem_nil, or_false] at member
    rcases member with rfl | rfl
    · have free : ∀ character ∈ Escape.specials, character ∉ "!".toList := by
        simp [Escape.specials]
      exact free
    · trivial
  have outer : run host loader program scope = runRoutine host loader 0
      (.interpolation "v" true (.partialCall "p" .done)) scope := execute_eq_runRoutine _ rfl
  have inner : execute host loader 1 called 0 called.instructions.size scope =
      runRoutine host loader 1 (.literal "!" (.partialCall "gone" .done)) scope :=
    execute_eq_runRoutine _ rfl
  have whole : ended = (do
      interpolate host "v" true scope
      runRoutine host loader 1 (.literal "!" (.partialCall "gone" .done)) scope
      pure () : Rendering Unit Unit) ⟨{}, {}, ()⟩ := by
    rw [← inner]
    exact congrFun outer _
  refine ⟨harmless, harmlessCalls, ?_, ?_,
    run_written_inert host loader program scope {} () harmless harmlessCalls⟩
  · rw [whole]
    decide +kernel
  · rw [whole]
    decide +kernel

end Rendering

end Mustache
