import Mustache.Program.Basic
import Mustache.Render.Escape
import Mustache.Render.Loader
import Mustache.Render.Sink
import Mustache.Scope.Resolve

/-!
# Running programs

A program is run from a scope into a sink. What stands between an opening instruction and its
closing instruction is run once for each frame that the named value makes, each time in a child
of the scope; for an inverted block it is run in the same scope, if there is no such frame.
Nothing that was written is taken back when a later instruction fails.
-/

namespace Mustache

/-- The host values of the frames that a block over a named value makes. A list makes one for
each element, `true` one without a host value, and everything that counts as false none. -/
def Resolved.frameHosts : Resolved → List (Option Value)
  | .empty | .absent => []
  | .value (.bool false) => []
  | .value (.bool true) => [none]
  | .value (.list items) => items.map some
  | .value (.document .null) | .value (.document (.bool false)) => []
  | .value (.document (.bool true)) => [none]
  | .value (.document (.array items)) => items.map fun item => some (Value.ofDocument item)
  | .value other => [some other]

/-- What running a program changes. -/
structure Session (σ : Type) where
  /-- Where the output goes. -/
  sink : Sink
  /-- The members of objects that were found. -/
  accessors : AccessorCache
  /-- The state of the loader. -/
  loading : σ

/-- A step of running a program. -/
abbrev Rendering (σ : Type) := ExceptT RenderError (StateM (Session σ))

namespace Rendering

variable {σ : Type}

/-- Writes bytes to the sink. -/
def write (bytes : ByteArray) : Rendering σ Unit := fun session =>
  match session.sink.write bytes with
  | (true, sink) => (.ok (), { session with sink := sink })
  | (false, sink) => (.error .sinkFull, { session with sink := sink })

/-- What a path names from a scope. -/
def resolve (host : Host) (scope : Scope) (path : String) : Rendering σ Resolved := fun session =>
  match scope.resolve host path session.accessors with
  | (.ok resolved, accessors) => (.ok resolved, { session with accessors := accessors })
  | (.error stall, accessors) => (.error (.stalled stall), { session with accessors := accessors })

/-- Loads a program by its name. -/
def load (loader : Loader σ) (name : String) : Rendering σ Program := fun session =>
  match loader.load name session.loading with
  | (.ok program, loading) => (.ok program, { session with loading := loading })
  | (.error error, loading) => (.error error, { session with loading := loading })

/-- Writes the text of a value, as it is or escaped, and then piece by piece. -/
def emit (host : Host) (value : Value) (escaped : Bool) : Rendering σ Unit :=
  match host.text value with
  | .error stall => throw (.stalled stall)
  | .ok text =>
    let bytes := text.toByteArray
    if escaped then (Escape.pieces bytes).forM write else write bytes

/-- How deep templates may call each other. -/
def maxDepth : Nat := 64

/-- Runs the instructions of a program from `start` to before `stop`, inside `depth` calls of
templates. -/
def execute (host : Host) (loader : Loader σ) (depth : Nat) (program : Program)
    (start stop : Nat) (scope : Scope) : Rendering σ Unit :=
  if inside : start < stop ∧ start < program.instructions.size then
    match program.instructions[start] with
    | .literal text => do
      write text.toByteArray
      execute host loader depth program (start + 1) stop scope
    | .interpolation path escaped => do
      match ← resolve host scope path with
      | .value value => emit host value escaped
      | .empty | .absent => pure ()
      execute host loader depth program (start + 1) stop scope
    | .openBlock kind path =>
      match found : program.endOf? start with
      | none => throw (.uncompiled (.endless start))
      | some close => do
        have later : start < close := Program.lt_of_endOf? found
        let hosts := (← resolve host scope path).frameHosts
        match kind with
        | .iterable =>
          hosts.forM fun inner =>
            execute host loader depth program (start + 1) close (scope.child inner)
        | .inverted =>
          if hosts.isEmpty then execute host loader depth program (start + 1) close scope
          else pure ()
        execute host loader depth program (close + 1) stop scope
    | .closeBlock => execute host loader depth program (start + 1) stop scope
    | .partialCall name =>
      if shallow : depth < maxDepth then do
        let called ← load loader name
        execute host loader (depth + 1) called 0 called.instructions.size scope
        execute host loader depth program (start + 1) stop scope
      else throw (.tooDeep name depth)
  else pure ()
  termination_by (maxDepth - depth, program.instructions.size - start)

/-- Runs a whole program. -/
def run (host : Host) (loader : Loader σ) (program : Program) (scope : Scope) :
    Rendering σ Unit :=
  execute host loader 0 program 0 program.instructions.size scope

end Rendering

end Mustache
