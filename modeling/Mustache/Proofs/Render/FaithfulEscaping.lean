import Mustache.Proofs.Render.Failures
import Mustache.Proofs.Render.InertOutput
import Mustache.Proofs.Render.Unescaping
import Mustache.Proofs.Storage.Persistence
import Mustache.Render.Engine

/-!
# Escaping is faithful

Bytes are escaped one by one, so it does not matter how they are cut, not even in the middle of a
character: `Escape.foldl_writeChunk`. What a rendering writes is always a text, and a run has no
way to fail for another reason than its own: `Engine.renderProgram_eq`. With what is known about
putting entities back, `Escape.escaping_is_faithful` says what escaping is good for.
-/

namespace Mustache

namespace Escape

theorem escapeBytes_append (first second : ByteArray) :
    escapeBytes (first ++ second) = escapeBytes first ++ escapeBytes second := by
  rw [escapeBytes, escapeBytes, escapeBytes, ByteArray.ext_iff, ByteArray.data_append,
    ByteArray.data_append, Array.toList_append, List.flatMap_append, List.append_toArray]

/-- Writing chunks one after another with `writeChunk` is writing all of them at once. -/
theorem foldl_writeChunk (written : ByteArray) (chunks : List ByteArray) :
    chunks.foldl (fun output chunk => (writeChunk output chunk).2) written =
      (writeChunk written (joined chunks)).2 := by
  induction chunks generalizing written with
  | nil => exact ByteArray.append_empty.symm
  | cons chunk rest inductionHypothesis =>
    rw [List.foldl_cons, inductionHypothesis, joined_cons]
    simp only [writeChunk, escapeBytes_append, ByteArray.append_assoc]

/-- What `writeChunk` writes for a text is read as what `escape` makes of it. -/
theorem fromUTF8?_writeChunk (text : String) :
    String.fromUTF8? (writeChunk .empty text.toByteArray).2 = some (escape text) := by
  rw [writeChunk, ByteArray.empty_append, escapeBytes_toByteArray]
  exact Storage.fromUTF8?_toByteArray (escape text)

end Escape

namespace Rendering

variable {σ : Type}

/-- Writing chunks escaped one after another is writing all of them escaped at once, whatever the
sink does. -/
theorem forM_pieces (chunks : List ByteArray) :
    (chunks.forM fun chunk => (Escape.pieces chunk).forM write : Rendering σ Unit) =
      (Escape.pieces (Escape.joined chunks)).forM write := by
  simp only [forM_write_pieces]
  induction chunks with
  | nil => exact write_empty.symm
  | cons chunk rest inductionHypothesis =>
    rw [Escape.joined_cons, Escape.escapeBytes_append, write_append, ← inductionHypothesis]
    rfl

end Rendering

namespace Compiler

theorem compileToLoad_failsWith (compiler : Compiler) (source : String) :
    FailsWith (· ≠ .notText) (compiler.compileToLoad source) := by
  intro library error failed
  unfold compileToLoad at failed
  split at failed <;> cases failed
  exact RenderError.noConfusion

theorem readToLoad_failsWith (name path : String) :
    FailsWith (· ≠ .notText) (readToLoad name path) := by
  intro library error failed
  unfold readToLoad at failed
  split at failed
  · cases failed
    split <;> exact RenderError.noConfusion
  · cases failed

/-- A loader never says that an output is no text (`RenderError.notText`). -/
theorem load_failsWith (compiler : Compiler) (templates : TemplateSource) (name : String) :
    FailsWith (· ≠ .notText) ((compiler.loader templates).load name) := by
  refine FailsWith.bind ?_ fun _ => .pure _
  cases templates with
  | memory templates =>
    simp only [load]
    split
    · exact .throw RenderError.noConfusion
    · exact (compiler.compileToLoad_failsWith _).bind fun _ => .pure _
  | files root extension =>
    have got : FailsWith (· ≠ .notText) (get : LoadAction Library) := by
      rintro _ _ ⟨⟩
    refine got.bind fun library => ?_
    split
    · exact .pure _
    · refine (readToLoad_failsWith name _).bind fun source => ?_
      refine (compiler.compileToLoad_failsWith source).bind fun compiled => ?_
      have modified : FailsWith (· ≠ .notText) (modify fun library =>
          { library with loaded := (name, compiled.shared) :: library.loaded } :
            LoadAction PUnit) := by
        rintro _ _ ⟨⟩
      exact modified.bind fun _ => .pure _

end Compiler

namespace Engine

/-- Wherever a run into a sink without a limit comes to its end, it has written a text, and the
library is one to which loading templates leads. -/
theorem run_spells (engine : Engine) (host : Host) (program : Program) (scope : Scope)
    (state : EngineState) :
    Rendering.Spells (fun _ => True) (engine.compiler.loader engine.templates) state.library
      (Rendering.run host (engine.compiler.loader engine.templates) program scope
        ⟨{}, state.accessors, state.library⟩).2 :=
  Rendering.Spells.run_written host (fun _ _ => trivial) trivial (fun _ _ => trivial)
    (fun _ _ _ _ => trivial) (fun _ _ _ _ => trivial) program (fun _ _ => trivial) scope
    state.accessors

/-- What `renderTo` writes into a sink without a limit is a text, whether the run fails or not. -/
theorem renderTo_written (engine : Engine) (host : Host) (program : Program) (scope : Scope)
    (state : EngineState) :
    ∃ text : String,
      (engine.renderTo host program scope {} state).1.2.written = text.toByteArray := by
  obtain ⟨text, written, _⟩ := (engine.run_spells host program scope state).written
  exact ⟨text, written⟩

/-- What `renderTo` does to the library with a sink without a limit is what loading templates does
(`Loader.Reaches`). -/
theorem renderTo_reaches (engine : Engine) (host : Host) (program : Program) (scope : Scope)
    (state : EngineState) :
    (engine.compiler.loader engine.templates).Reaches state.library
      (engine.renderTo host program scope {} state).2.library :=
  (engine.run_spells host program scope state).reached

/-- Running a program with `renderTo` fails only with errors of its own and of loading. -/
theorem renderTo_ne_notText (engine : Engine) (host : Host) (program : Program) (scope : Scope)
    (sink : Sink) (state : EngineState) :
    (engine.renderTo host program scope sink state).1.1 ≠ .error .notText := by
  intro failed
  have cause := Rendering.execute_fails host (engine.compiler.loader engine.templates) 0 program 0
    program.instructions.size scope _ _ failed
  cases cause with
  | refused answer => exact engine.compiler.load_failsWith engine.templates _ _ _ answer rfl

/-- Rendering to a text with `renderProgram` is to `renderTo` a sink without a limit and to take
what was written as a text, which it always is. -/
theorem renderProgram_eq (engine : Engine) (host : Host) (program : Program) (scope : Scope)
    (state : EngineState) :
    ∃ text : String,
      (engine.renderTo host program scope {} state).1.2.written = text.toByteArray ∧
      engine.renderProgram host program scope state =
        ((engine.renderTo host program scope {} state).1.1.map fun _ => text,
          (engine.renderTo host program scope {} state).2) := by
  obtain ⟨text, written⟩ := engine.renderTo_written host program scope state
  refine ⟨text, written, ?_⟩
  unfold renderProgram
  rcases ran : engine.renderTo host program scope {} state with ⟨⟨_ | _, sink⟩, after⟩
  · rfl
  · rw [ran] at written
    simp only [show sink.written = _ from written, Storage.fromUTF8?_toByteArray]
    rfl

end Engine

/-- What `escape` is good for. What is written for a text is a text again, the one with every
special character replaced by its entity and nothing else changed. It is inert, and putting the
entities back gives the text, so different texts are written differently. However bytes are cut, the
same is written for the chunks as for all of them at once, each chunk is taken whole, and sinks show
no difference. So the output of a rendering is always a text, and rendering to a text never fails
for its output being none. -/
theorem Escape.escaping_is_faithful :
    (∀ text : String,
      String.fromUTF8? (writeChunk .empty text.toByteArray).2 = some (escape text) ∧
      (escape text).toList = text.toList.flatMap (fun character =>
        ((specials.zip entities).lookup character).elim [character] String.toList) ∧
      IsInert (escape text).toList ∧ unescape (escape text) = text) ∧
    Function.Injective escape ∧
    (∀ (written : ByteArray) (chunks : List ByteArray),
      chunks.foldl (fun output chunk => (writeChunk output chunk).2) written =
        (writeChunk written (joined chunks)).2) ∧
    (∀ written chunk : ByteArray, (writeChunk written chunk).1 = chunk.size ∧
      (writeChunk written chunk).2 = written ++ joined (pieces chunk)) ∧
    (∀ (σ : Type) (chunks : List ByteArray),
      (chunks.forM fun chunk => (pieces chunk).forM Rendering.write : Rendering σ Unit) =
        (pieces (joined chunks)).forM Rendering.write) ∧
    ∀ (engine : Engine) (host : Host) (program : Program) (scope : Scope) (state : EngineState),
      (engine.renderProgram host program scope state).1 ≠ .error .notText ∧
      ∃ text : String,
        (engine.renderTo host program scope {} state).1.2.written = text.toByteArray ∧
        engine.renderProgram host program scope state =
          ((engine.renderTo host program scope {} state).1.1.map fun _ => text,
            (engine.renderTo host program scope {} state).2) := by
  refine ⟨fun text => ⟨fromUTF8?_writeChunk text, ?_, isInert_escape text, unescape_escape text⟩,
    Function.LeftInverse.injective unescape_escape, foldl_writeChunk,
    fun written chunk => ⟨rfl, ?_⟩, fun σ => Rendering.forM_pieces,
    fun engine host program scope state => ⟨?_, ?_⟩⟩
  · rw [escape, String.toList_ofList]
    exact congrArg text.toList.flatMap (funext escapeChar_eq)
  · rw [joined_pieces]
    rfl
  · obtain ⟨text, _, same⟩ := engine.renderProgram_eq host program scope state
    have own := engine.renderTo_ne_notText host program scope {} state
    rw [same]
    intro failed
    cases ran : (engine.renderTo host program scope {} state).1.1 with
    | error error =>
      rw [ran] at failed
      cases failed
      exact own ran
    | ok =>
      rw [ran] at failed
      cases failed
  · exact engine.renderProgram_eq host program scope state

end Mustache
