import Mustache.Render.Execute

/-!
# Engines

An engine compiles and renders the templates of one source and keeps what it learns on the way:
the programs it compiled and the members of objects it found. A text is only the result of a
rendering that came to its end; a rendering into a sink leaves there what it wrote.
-/

namespace Mustache

/-- A compiler and where it finds templates. -/
structure Engine where
  /-- The compiler. -/
  compiler : Compiler := {}
  /-- Where templates are found. -/
  templates : TemplateSource := .memory []
  deriving Inhabited

/-- What an engine has learnt. -/
structure EngineState where
  /-- The templates. -/
  library : Library
  /-- The members of objects that were found. -/
  accessors : AccessorCache := {}
  deriving Inhabited

/-- A step of an engine. -/
abbrev EngineAction := ExceptT RenderError (StateM EngineState)

namespace Engine

/-- A step of loading as a step of an engine. -/
def onLibrary {α : Type} (action : LoadAction α) : EngineAction α := fun state =>
  match action state.library with
  | (result, library) => (result, { state with library := library })

/-- The program of a text. -/
def compile (engine : Engine) (source : String) : EngineAction SharedProgram := do
  return (← onLibrary (engine.compiler.compileToLoad source)).shared

/-- The program of a template that is found by its name. -/
def load (engine : Engine) (name : String) : EngineAction SharedProgram :=
  onLibrary (engine.compiler.load engine.templates name)

/-- Runs a program into a sink. What was written stays there, whether the run fails or not. -/
def renderTo (engine : Engine) (host : Host) (program : Program) (scope : Scope) (sink : Sink) :
    StateM EngineState (Except RenderError Unit × Sink) := fun state =>
  let loader := engine.compiler.loader engine.templates
  match Rendering.run host loader program scope ⟨sink, state.accessors, state.library⟩ with
  | (result, session) =>
    ((result, session.sink), { library := session.loading, accessors := session.accessors })

/-- The text that a program makes. -/
def renderProgram (engine : Engine) (host : Host) (program : Program) (scope : Scope) :
    EngineAction String := fun state =>
  match engine.renderTo host program scope {} state with
  | ((.error error, _), state) => (.error error, state)
  | ((.ok (), sink), state) =>
    match String.fromUTF8? sink.written with
    | some text => (.ok text, state)
    | none => (.error .notText, state)

/-- The text that a template makes of a value. -/
def renderText (engine : Engine) (host : Host) (source : String) (value : Value) :
    EngineAction String := do
  let shared ← engine.compile source
  engine.renderProgram host shared.program (Scope.root (.ofHost value))

/-- The text that the template of a name makes of a value. -/
def render (engine : Engine) (host : Host) (name : String) (value : Value) :
    EngineAction String := do
  let shared ← engine.load name
  engine.renderProgram host shared.program (Scope.root (.ofHost value))

end Engine

end Mustache
