import Mustache.Compile.Compiler
import Mustache.Render.Error

/-!
# Loaders

Where a template is found by its name: in a list of texts, or among the files below a root. A
name without an extension gets the one of the loader. A file that was loaded is remembered
under its name and not read again; a failure is not remembered.
-/

namespace Mustache

/-- A way to programs by their names, with a state of type `σ`. -/
structure Loader (σ : Type) where
  /-- The program under a name. -/
  load : String → ExceptT RenderError (StateM σ) Program

/-- What loading templates changes. -/
structure Library where
  /-- The programs and the files. -/
  workshop : Workshop
  /-- The programs that were loaded from files, under the names of their templates. -/
  loaded : List (String × SharedProgram) := []
  deriving Inhabited

/-- A step that loads templates. -/
abbrev LoadAction := ExceptT RenderError (StateM Library)

/-- Where templates are found by their names. -/
inductive TemplateSource where
  /-- Among texts with names. -/
  | memory (templates : List (String × String))
  /-- Among the files below a root; names without an extension get one. -/
  | files (root extension : String)
  deriving Inhabited

namespace TemplateSource

/-- The extension that template names get if nothing else is said. -/
def defaultExtension : String := "mustache"

/-- The files below a root, with an extension that may be given with its dot. -/
def ofRoot (root extension : String) : TemplateSource :=
  .files root (String.ofList (extension.toList.dropWhile (· == '.')))

/-- The path of the file below a root for a name. -/
def filePath (root extension name : String) : String :=
  if (Path.extension? name.toList).isSome || extension.isEmpty then Path.join root name
  else Path.join root (name ++ "." ++ extension)

end TemplateSource

namespace Compiler

/-- The program of a template, as a step of loading. -/
def compileToLoad (compiler : Compiler) (source : String) : LoadAction Compiled :=
  fun library =>
    match compiler.compile source library.workshop with
    | (.error error, workshop) =>
      (.error (.uncompiled error), { library with workshop := workshop })
    | (.ok compiled, workshop) => (.ok compiled, { library with workshop := workshop })

/-- The text of a template file. -/
def readToLoad (name path : String) : LoadAction String :=
  fun library =>
    match Disk.readText path library.workshop.disk with
    | (.error error, disk) =>
      let reason := match error with
        | .notFound => .templateNotFound name path
        | error => .unreadable path error
      (.error reason, { library with workshop := { library.workshop with disk := disk } })
    | (.ok text, disk) =>
      (.ok text, { library with workshop := { library.workshop with disk := disk } })

/-- The program of a template that is found by its name. -/
def load (compiler : Compiler) (templates : TemplateSource) (name : String) :
    LoadAction SharedProgram :=
  match templates with
  | .memory templates =>
    match templates.lookup name with
    | none => throw (.templateNotFound name name)
    | some source => do return (← compiler.compileToLoad source).shared
  | .files root extension => do
    match (← get).loaded.lookup name with
    | some shared => return shared
    | none =>
      let source ← readToLoad name (TemplateSource.filePath root extension name)
      let compiled ← compiler.compileToLoad source
      modify fun library =>
        { library with loaded := (name, compiled.shared) :: library.loaded }
      return compiled.shared

/-- The loader of a compiler and its templates. -/
def loader (compiler : Compiler) (templates : TemplateSource) : Loader Library where
  load name := do return (← compiler.load templates name).program

end Compiler

end Mustache
