import Mustache.Proofs.Render.Context
import Mustache.Proofs.Render.Continuation

/-!
# Calls written out

A call of a template does what the instructions of the template do where the call stands. So they
may stand there themselves, at any depth of blocks and however often these blocks are run: from
every scope the output and the result are the same, unless the program with the call ends because
its calls are too deep, for without the call everything in the template is one call less deep
(`exists_inlined`).
-/

namespace Mustache

/-- Whether an error is `tooDeep`: templates call each other too deep. -/
def RenderError.IsTooDeep (error : RenderError) : Prop :=
  ∃ name depth, error = .tooDeep name depth

/-- Whatever it was asked before, a loader answers a name with a program; and it does not show in
its other answers how often it was asked for this name. -/
def Loader.Serves {σ : Type} (loader : Loader σ) (loading : σ) (name : String)
    (called : Program) : Prop :=
  ∃ states : σ → σ → Prop, states loading loading ∧
    (∀ asked, Alike states (loader.load asked) (loader.load asked)) ∧
    ∀ first second, states first second →
      (loader.load name first).1 = .ok called ∧ states (loader.load name first).2 second

/-- A loader whose answers stay the same (`Steady`) serves each program that it answers with. -/
theorem Loader.Steady.serves {σ : Type} {loader : Loader σ} {loading : σ}
    (steady : loader.Steady loading) {name : String} {called : Program}
    (answered : (loader.load name loading).1 = .ok called) :
    loader.Serves loading name called := by
  obtain ⟨answer, reached, start, answers⟩ := steady
  refine ⟨fun first second => reached first ∧ reached second, ⟨start, start⟩, ?_, ?_⟩
  · rintro asked first second ⟨firstReached, secondReached⟩
    obtain ⟨firstAnswer, firstAfter⟩ := answers asked first firstReached
    obtain ⟨secondAnswer, secondAfter⟩ := answers asked second secondReached
    exact ⟨firstAnswer.trans secondAnswer.symm, firstAfter, secondAfter⟩
  · rintro first second ⟨firstReached, secondReached⟩
    obtain ⟨firstAnswer, firstAfter⟩ := answers name first firstReached
    refine ⟨?_, firstAfter, secondReached⟩
    rw [firstAnswer, ← (answers name loading start).1, answered]

namespace Rendering

variable {σ : Type} {host : Host} {loader : Loader σ} {states : σ → σ → Prop}

section

variable (loads : ∀ name, Alike states (loader.load name) (loader.load name))

include loads

/-- What is done at an instruction is the same if what happens inside of it is. -/
theorem actions_sameUnless {excused : RenderError → Prop} :
    Actions.RelatedFor (fun _ => True) Eq
      (AlikeUnless excused (Session.Alongside Eq Eq states)) (actions host loader)
      (actions host loader) :=
  actions_alikeUnless Sink.takeAlike_eq (fun name _ => loads name)
    (fun _ _ _ _ _ _ _ _ _ => trivial)
    (Host.showsAlike_self (fun scope path => .of_eq (scope.resolve host path)) _)

/-- Calling a template with `invoke` does what its instructions do, unless its calls are too deep.
-/
theorem invoke_alikeUnless (depth : Nat) {name : String} {called : Program}
    (serves : ∀ first second, states first second →
      (loader.load name first).1 = .ok called ∧ states (loader.load name first).2 second)
    (scope : Scope) :
    AlikeUnless RenderError.IsTooDeep (Session.Alongside Eq Eq states)
      (invoke host loader depth name scope)
      (execute host loader depth called 0 called.instructions.size scope) := by
  by_cases shallow : depth < maxDepth
  · rw [invoke, if_pos shallow]
    intro first second start
    obtain ⟨answered, after⟩ := serves _ _ start.loading
    have loaded : load loader name first =
        (.ok called, { first with loading := (loader.load name first.loading).2 }) := by
      unfold load
      rcases answer : loader.load name first.loading with ⟨_ | program, further⟩
      · rw [answer] at answered
        cases answered
      · rw [answer] at answered
        cases answered
        rfl
    rw [bind_apply, loaded]
    have bodies : AlikeUnless RenderError.IsTooDeep (Session.Alongside Eq Eq states)
        (execute host loader (depth + 1) called 0 called.instructions.size scope)
        (execute host loader depth called 0 called.instructions.size scope) :=
      execute_relatedFor_of_le (actions_sameUnless loads) (Nat.le_succ depth)
        (fun _ name reached step => .throw ⟨name, reached, rfl⟩ step) called
        (fun _ _ => trivial) 0 called.instructions.size rfl
    exact bodies _ _ ⟨start.sink, start.accessors, after⟩
  · rw [invoke, if_neg shallow]
    exact .throw ⟨name, depth, rfl⟩ _

end

end Rendering

/-- Wherever a program calls a template, the template's instructions may stand instead:
`Program.make` makes a program of them, and from every scope this writes the same and ends in the
same way, if the loader serves the template (`Loader.Serves`) and the run with the call does not end
because calls are too deep. -/
theorem exists_inlined {program called : Program} {name : String}
    {before after : List Instruction}
    (laidOut : program.instructions.toList = before ++ .partialCall name :: after) :
    ∃ inlined : Program,
      Program.make (before ++ called.instructions.toList ++ after) = .ok inlined ∧
      ∀ {σ : Type} (host : Host) (loader : Loader σ) (scope : Scope) (session : Session σ),
        loader.Serves session.loading name called →
        (∀ asked depth,
          (Rendering.run host loader program scope session).1 ≠ .error (.tooDeep asked depth)) →
        (Rendering.run host loader inlined scope session).1 =
            (Rendering.run host loader program scope session).1 ∧
          (Rendering.run host loader inlined scope session).2.sink =
            (Rendering.run host loader program scope session).2.sink := by
  obtain ⟨context, inner, further, whole, rfl, starts, rfl⟩ :=
    Program.exists_fill (by nofun) laidOut
  obtain ⟨next, rfl, rfl⟩ : ∃ next, inner = .partialCall name next ∧ next.flatten = further := by
    cases inner with
    | partialCall other next =>
      rw [Routine.flatten, List.cons.injEq, Instruction.partialCall.injEq] at starts
      obtain ⟨rfl, rfl⟩ := starts
      exact ⟨next, rfl, rfl⟩
    | done | literal | interpolation | block => cases starts
  obtain ⟨body, bodyLaidOut⟩ := called.exists_routine
  obtain ⟨inlined, made, inlinedLaidOut⟩ :=
    Program.exists_make_flatten (context.fill (body.append next))
  refine ⟨inlined, ?_, ?_⟩
  · rw [← made, context.flatten_fill, Routine.flatten_append, bodyLaidOut]
    simp only [List.append_assoc]
  · intro σ host loader scope session ⟨states, start, loads, serves⟩ shallow
    have placed : ∀ inner : Scope, AlikeUnless RenderError.IsTooDeep
        (Session.Alongside Eq Eq states)
        (Rendering.runRoutine host loader 0 (.partialCall name next) inner)
        (Rendering.runRoutine host loader 0 (body.append next) inner) := by
      intro inner
      rw [Rendering.runRoutine_append, ← Rendering.execute_eq_runRoutine body bodyLaidOut]
      exact (Rendering.invoke_alikeUnless loads 0 serves inner).bind_of_result fun _ _ _ _ _ =>
        Rendering.runRoutine_relatedFor (Rendering.actions_sameUnless loads) 0 next rfl
    have runs : AlikeUnless RenderError.IsTooDeep (Session.Alongside Eq Eq states)
        (Rendering.runRoutine host loader 0 (context.fill (.partialCall name next)) scope)
        (Rendering.runRoutine host loader 0 (context.fill (body.append next)) scope) :=
      Rendering.runRoutine_fill_alikeUnless Sink.takeAlike_eq
        (fun scope path => .of_eq (scope.resolve host path)) loads (fun _ _ => True)
        (fun _ _ _ _ => trivial) (fun _ _ _ _ => trivial) 0 context [] trivial
        fun inner _ => placed inner
    rw [← Rendering.execute_eq_runRoutine _ whole,
      ← Rendering.execute_eq_runRoutine _ inlinedLaidOut] at runs
    obtain ⟨_, ⟨asked, depth, rfl⟩, deep⟩ | ⟨sameResult, ended⟩ :=
      runs session session ⟨rfl, rfl, start⟩
    · exact absurd deep (shallow asked depth)
    · exact ⟨sameResult.symm, ended.sink.symm⟩

/-- A template that is called for each item of a list. -/
theorem exists_inlined_each :
    let called : Program :=
      ⟨#[.literal "<", .interpolation "." true, .literal ">"], #[none, none, none], _, rfl, rfl⟩
    let program : Program :=
      ⟨#[.openBlock .iterable "xs", .partialCall "item", .closeBlock], #[some 2, none, none], _,
        rfl, rfl⟩
    let loader : Loader Unit :=
      ⟨fun name => if name = "item" then pure called else throw (.templateNotFound name name)⟩
    let host := Host.ofSchema []
    let scope := Scope.root (.ofHost (.map [("xs", .list [.str "&", .str "2"])]))
    let ended := Rendering.run host loader program scope ⟨{}, {}, ()⟩
    program.instructions.toList =
        [.openBlock .iterable "xs"] ++ .partialCall "item" :: [.closeBlock] ∧
      loader.Serves () "item" called ∧
      (∀ asked depth, ended.1 ≠ .error (.tooDeep asked depth)) ∧
      ended.2.sink.written = "<&amp;><2>".toByteArray ∧
      ∃ inlined : Program,
        Program.make ([.openBlock .iterable "xs"] ++ called.instructions.toList ++ [.closeBlock]) =
          .ok inlined ∧
        (Rendering.run host loader inlined scope ⟨{}, {}, ()⟩).1 = ended.1 ∧
        (Rendering.run host loader inlined scope ⟨{}, {}, ()⟩).2.sink = ended.2.sink := by
  intro called program loader host scope ended
  have laidOut : program.instructions.toList =
      [.openBlock .iterable "xs"] ++ .partialCall "item" :: [.closeBlock] := rfl
  have serves : loader.Serves () "item" called :=
    Loader.Steady.serves ⟨fun name => (loader.load name ()).1, fun _ => True, trivial,
      fun _ _ _ => ⟨rfl, trivial⟩⟩ rfl
  let item : Routine := .literal "<" (.interpolation "." true (.literal ">" .done))
  let each (inner : Scope) : Rendering Unit Unit :=
    Rendering.runRoutine host loader 1 item inner >>= fun _ => pure ()
  have call : Rendering.runRoutine host loader 0 (.partialCall "item" .done) = each := by
    funext inner
    simp only [each]
    rw [← Rendering.execute_eq_runRoutine item (rfl : called.instructions.toList = item.flatten)]
    rfl
  have whole : ended = (Rendering.overFrames host .iterable "xs" scope each >>= fun _ => pure ())
      ⟨{}, {}, ()⟩ := by
    rw [← call]
    exact congrFun (Rendering.execute_eq_runRoutine
      (.block .iterable "xs" (.partialCall "item" .done) .done) rfl) _
  have result : ended.1 = .ok () := by
    rw [whole]
    decide +kernel
  have shallow : ∀ asked depth, ended.1 ≠ .error (.tooDeep asked depth) := by
    rw [result]
    exact nofun
  refine ⟨laidOut, serves, shallow, ?_, ?_⟩
  · rw [whole]
    decide +kernel
  · obtain ⟨inlined, made, same⟩ := exists_inlined laidOut
    exact ⟨inlined, made, same host loader scope ⟨{}, {}, ()⟩ serves shallow⟩

end Mustache
