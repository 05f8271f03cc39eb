import Mustache.CommandLine.Command
import Mustache.Render.Engine
import Mustache.Storage.Artifact

/-!
# Running commands

What a command does with the files and what it prints. A command that fails prints what it was
about and, below, what led to it, one cause after the other. What was printed before stays.
Contexts are read in one format only, JSON (`readContext`). Log lines are left out, and one `usage`
stands for the texts that explain the commands.
-/

namespace Mustache.CommandLine

/-- The files and what has been printed. -/
structure Console where
  /-- The files. -/
  disk : Disk
  /-- What went to the standard output. -/
  output : ByteArray := .empty
  /-- What went to the standard error. -/
  errors : String := ""
  deriving Inhabited

/-- Why a command failed: what it was about, and what led to it. -/
structure Failure where
  /-- What the command was about. -/
  subject : String
  /-- What led to it, the nearest cause first. -/
  causes : List String := []
  deriving Repr, DecidableEq, Inhabited

/-- A step of a command. -/
abbrev CommandAction := ExceptT Failure (StateM Console)

namespace Failure

/-- A cause, the lines after its first one indented. -/
def indented (lead indent : String) (cause : String) : String :=
  lead ++ String.ofList (cause.toList.flatMap fun character =>
    if character == '\n' then '\n' :: indent.toList else [character])

/-- Causes with their numbers. -/
def numbered (number : Nat) : List String → List String
  | [] => []
  | cause :: rest =>
    let digits := toString number
    let lead := String.ofList (List.replicate (5 - digits.length) ' ') ++ digits ++ ": "
    indented lead "       " cause :: numbered (number + 1) rest

/-- The causes as they are printed. A single one has no number. -/
def causeLines : List String → List String
  | [cause] => [indented "    " "    " cause]
  | causes => numbered 0 causes

/-- What is printed about a failure. -/
def report (failure : Failure) : String :=
  let lines := match failure.causes with
    | [] => [failure.subject]
    | causes => failure.subject :: "" :: "Caused by:" :: causeLines causes
  "Error: " ++ String.intercalate "\n" lines ++ "\n"

end Failure

namespace CommandAction

/-- Prints bytes. -/
def print (bytes : ByteArray) : CommandAction Unit :=
  modify fun console => { console with output := console.output ++ bytes }

/-- Prints a text. -/
def printText (text : String) : CommandAction Unit :=
  print text.toByteArray

/-- Prints the warnings of a compiler. -/
def warn (warnings : List Warning) : CommandAction Unit :=
  modify fun console =>
    { console with
      errors := console.errors ++
        String.join (warnings.map fun warning => "warning: " ++ warning.message ++ "\n") }

/-- A step on files that cannot fail. -/
def onDisk {α : Type} (action : StateM Disk α) : CommandAction α := fun console =>
  match action console.disk with
  | (value, disk) => (.ok value, { console with disk := disk })

/-- A step on files. When it fails the command is about `subject`. -/
def attempt {ε α : Type} (subject : String) (causes : ε → List String)
    (action : ExceptT ε (StateM Disk) α) : CommandAction α := do
  match ← onDisk action.run with
  | .ok value => return value
  | .error error => throw ⟨subject, causes error⟩

end CommandAction

/-- A compile error among the causes of a failure. -/
def compileCauses (error : CompileError) : List String :=
  error.message :: error.causes

/-- A render error among the causes of a failure. -/
def renderCauses (error : RenderError) : List String :=
  error.message :: error.causes

/-- A storage error among the causes of a failure. -/
def storageCauses (error : StorageError) : List String :=
  error.message :: error.causes

/-- A step of a compiler with a cache, as a step on files that gives back the cache. -/
def withCache {α : Type} (cache : ProgramCache) (action : CompileAction α) :
    ExceptT CompileError (StateM Disk) (α × ProgramCache) := fun disk =>
  match action ⟨cache, disk⟩ with
  | (.error error, workshop) => (.error error, workshop.disk)
  | (.ok value, workshop) => (.ok (value, workshop.cache), workshop.disk)

/-- The program of a template file, with the cache it is in. -/
def compileFile (compiler : Compiler) (cache : ProgramCache) (template : String) :
    CommandAction (Compiled × ProgramCache) :=
  .attempt s!"failed to compile {template}" compileCauses
    (withCache cache (compiler.compileFile template))

/-- The document in a file. The extension of the file says how it is written. JSON is the only
format that is read here (`Document.parse?`): a file with the extension `yaml` or `yml` always fails,
whatever it holds, where a full program would read YAML. -/
def readContext (path : String) : CommandAction Document := do
  let text ← .attempt s!"failed to read context {path}" (fun error => [error.message])
    (Disk.readText path)
  let extension := (Path.extension? path.toList).map (·.map Char.toLower)
  if extension == some "json".toList then
    match Document.parse? text with
    | some document => return document
    | none => throw ⟨s!"invalid JSON in {path}", ["not a JSON text"]⟩
  else if extension == some "yaml".toList || extension == some "yml".toList then
    throw ⟨s!"invalid YAML in {path}", ["contexts in this format are not supported"]⟩
  else
    throw ⟨s!"unsupported context format '{path}'; expected .json, .yaml or .yml", []⟩

/-- The scope of a document in which names are bound to texts. -/
def scopeOf (document : Document) (bindings : List (String × String)) : Scope :=
  bindings.foldl (fun scope (name, text) => scope.bind name (.str text))
    (Scope.root (.ofHost (.document document)))

/-- A cache with the programs that are stored in a directory, if there is one. -/
def warmedCache (artifacts : Option String) : CommandAction ProgramCache := do
  match artifacts with
  | none => return .empty
  | some root =>
    .attempt s!"failed to warm artifacts from {root}" storageCauses fun disk =>
      match Storage.warm root (.empty, disk) with
      | (.ok _, cache, disk) => (.ok cache, disk)
      | (.error error, _, disk) => (.error error, disk)

/-- Stores all programs of a cache in a directory. -/
def persist (now : Timestamp) (root : String) (cache : ProgramCache) :
    CommandAction (List Stored) :=
  .attempt s!"failed to persist artifacts to {root}" storageCauses
    (Storage.persistAll root now cache)

/-- Runs a program of an engine into a sink. -/
def renderTo (engine : Engine) (cache : ProgramCache) (program : Program) (scope : Scope) :
    CommandAction (Except RenderError Unit × Sink × ProgramCache) :=
  .onDisk fun disk =>
    let state : EngineState := { library := { workshop := ⟨cache, disk⟩ } }
    match engine.renderTo (Host.ofSchema []) program scope {} state with
    | ((result, sink), state) =>
      ((result, sink, state.library.workshop.cache), state.library.workshop.disk)

/-- Runs a program of an engine to a text. -/
def renderProgram (engine : Engine) (cache : ProgramCache) (program : Program) (scope : Scope) :
    CommandAction (Except RenderError String × ProgramCache) :=
  .onDisk fun disk =>
    let state : EngineState := { library := { workshop := ⟨cache, disk⟩ } }
    match engine.renderProgram (Host.ofSchema []) program scope state with
    | (result, state) =>
      ((result, state.library.workshop.cache), state.library.workshop.disk)

/-- Writes what a program makes to a file or prints it. Nothing reaches the file unless the
program comes to its end. The answer is the cache with the programs of other templates. -/
def deliver (options : RenderOptions) (engine : Engine) (cache : ProgramCache)
    (program : Program) (scope : Scope) : CommandAction ProgramCache := do
  let subject := s!"failed to render {options.template}"
  match options.output with
  | some path =>
    let (result, cache) ← renderProgram engine cache program scope
    match result with
    | .error error => throw ⟨subject, renderCauses error⟩
    | .ok text =>
      .attempt s!"failed to write {path}" (fun error => [error.message])
        (Disk.write path text.toByteArray)
      return cache
  | none =>
    let (result, sink, cache) ← renderTo engine cache program scope
    .print sink.written
    match result with
    | .error error => throw ⟨subject, renderCauses error⟩
    | .ok () => return cache

/-- Renders a template file. -/
def render (now : Timestamp) (options : RenderOptions) : CommandAction Unit := do
  let compiler : Compiler := { dumpDirectory := options.debugDirectory }
  let root := options.root.getD ((Path.parent? options.template).getD "")
  let extension := options.extension.getD TemplateSource.defaultExtension
  let engine : Engine := ⟨compiler, TemplateSource.ofRoot root extension⟩
  let cache ← warmedCache options.artifacts
  let (compiled, cache) ← compileFile compiler cache options.template
  .warn compiled.warnings
  let document ← match options.context with
    | some path => readContext path
    | none => pure (.object [])
  let cache ← deliver options engine cache compiled.shared.program
    (scopeOf document options.bindings)
  match options.artifacts with
  | none => pure ()
  | some root =>
    let _ ← persist now root cache

/-- The markers that a text names, with a space between them. -/
def markers (pair : String) : CommandAction Delimiters :=
  match splitOnce? ' ' pair with
  | none => throw ⟨s!"expected delimiters as \"OPEN CLOSE\", got '{pair}'", []⟩
  | some (opening, closing) =>
    match Delimiters.ofMarkers (trimmed opening) (trimmed closing) with
    | .ok delimiters => return delimiters
    | .error error => throw ⟨s!"invalid delimiters '{pair}'", compileCauses error⟩

/-- The program of a template as a document. -/
def programDocument (program : Program) : Document :=
  (Document.object [
    ("hash", .string program.hash.text),
    ("instructions", Instruction.documents program.instructions.toList)]).sorted

/-- Shows the program of a template file. -/
def dump (options : DumpOptions) : CommandAction Unit := do
  let delimiters ← match options.delimiters with
    | some pair => markers pair
    | none => pure .standard
  let (compiled, _) ← compileFile { delimiters := delimiters } .empty options.template
  .warn compiled.warnings
  let program := compiled.shared.program
  if options.asDocument then
    .printText ((programDocument program).write .pretty ++ "\n")
  else .printText ("# Program" ++ program.hash.text ++ "\n" ++ program.lowered)

/-- What is printed about a program that was to be stored. -/
def storedLine (stored : Stored) : String :=
  (if stored.isWritten then "wrote " else "unchanged ") ++ stored.path ++ "\n"

/-- What is printed about all programs that were to be stored. -/
def storedSummary (results : List Stored) : String :=
  let total := results.length
  let written := results.countP Stored.isWritten
  let unchanged := total - written
  s!"{total} program(s), {written} written, {unchanged} unchanged\n"

/-- Stores the programs of template files. -/
def warm (now : Timestamp) (options : WarmOptions) : CommandAction Unit := do
  let cache ← options.templates.foldlM
    (fun cache template => do return (← compileFile {} cache template).2) .empty
  let results ← persist now options.artifacts cache
  .printText (String.join (results.map storedLine) ++ storedSummary results)

/-- Runs a command. -/
def Command.run (now : Timestamp) : Command → CommandAction Unit
  | .render options => CommandLine.render now options
  | .dump options => CommandLine.dump options
  | .warm options => CommandLine.warm now options

/-- What the program prints about itself. -/
def versionLine : String := "stache 0.1.0\n"

/-- What the program prints about its use. -/
def usage : String :=
  "Usage: stache render <TEMPLATE> [--root DIR] [-c FILE] [--set KEY=VALUE]... " ++
    "[--extension EXT] [--debug-dir DIR] [-o FILE] [--artifacts DIR] [--debug]\n" ++
    "       stache dump <TEMPLATE> [--delimiters \"OPEN CLOSE\"] [--json]\n" ++
    "       stache warm <ARTIFACTS> <TEMPLATE>...\n"

/-- Runs the program with its arguments. The answer is its exit status: 2 if the arguments are
wrong, 1 if the command failed. -/
def run (now : Timestamp) (artifacts : Option String) (arguments : List String) :
    StateM Console Nat := do
  match Command.parse artifacts arguments with
  | .error .version =>
    modify fun console => { console with output := console.output ++ versionLine.toByteArray }
    return 0
  | .error .help =>
    modify fun console => { console with output := console.output ++ usage.toByteArray }
    return 0
  | .error .misuse =>
    modify fun console => { console with errors := console.errors ++ usage }
    return 2
  | .ok command =>
    match ← (command.run now).run with
    | .ok () => return 0
    | .error failure =>
      modify fun console => { console with errors := console.errors ++ failure.report }
      return 1

end Mustache.CommandLine
