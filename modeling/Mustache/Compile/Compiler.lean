import Mustache.Program.Cache
import Mustache.Storage.Disk

/-!
# Compilers

A compiler takes a template's text through its tokens, its tree and its instructions to a
program of its cache. It may write the text form of each program it builds into a directory;
a program whose text form cannot be written is not entered.
-/

namespace Mustache

/-- What compiling changes: the cache of programs and the files. -/
structure Workshop where
  /-- The programs that have been built or loaded. -/
  cache : ProgramCache
  /-- The files. -/
  disk : Disk
  deriving Inhabited

/-- A step that changes a workshop and may fail as compiling does. -/
abbrev CompileAction := ExceptT CompileError (StateM Workshop)

/-- A program, and what was noticed on the way to it. -/
structure Compiled where
  /-- The program. -/
  shared : SharedProgram
  /-- What was noticed. -/
  warnings : List Warning

/-- How templates are compiled. -/
structure Compiler where
  /-- The markers of the tags. -/
  delimiters : Delimiters := .standard
  /-- Where the text forms of programs go, if anywhere. -/
  dumpDirectory : Option String := none
  deriving Inhabited

/-- A workshop with no programs and a given disk. -/
def Workshop.ofDisk (disk : Disk) : Workshop :=
  ⟨.empty, disk⟩

namespace Compiler

/-- Runs an operation on files as part of compiling. -/
def onFiles {α : Type} (explain : FileError → CompileError) (action : FileAction α) :
    CompileAction α :=
  fun workshop =>
    match action workshop.disk with
    | (.error error, disk) => (.error (explain error), { workshop with disk := disk })
    | (.ok value, disk) => (.ok value, { workshop with disk := disk })

/-- Runs an operation on files and turns its error into another one. -/
def explaining {ε α : Type} (explain : FileError → ε) (action : FileAction α) :
    ExceptT ε (StateM Disk) α :=
  fun disk =>
    match action disk with
    | (.error error, disk) => (.error (explain error), disk)
    | (.ok value, disk) => (.ok value, disk)

/-- Writes down the text form of a program, if that is asked for. -/
def dump (compiler : Compiler) (program : Program) : ExceptT CompileError (StateM Disk) Unit :=
  match compiler.dumpDirectory with
  | none => pure ()
  | some directory => do
    explaining (.undumped directory) (Disk.createDirectories directory)
    let path := Path.join directory s!"Program{program.hash.text}.txt"
    explaining (.undumped path) (Disk.write path program.lowered.toByteArray)

/-- The program of a template. -/
def compile (compiler : Compiler) (source : String) : CompileAction Compiled :=
  fun workshop =>
    match Template.parse compiler.delimiters source with
    | .error error => (.error (.malformed error), workshop)
    | .ok template =>
      let (result, cache, disk) := ProgramCache.lookupOrBuildWith compiler.dump
        (Instruction.ofNodes template.nodes) (workshop.cache, workshop.disk)
      match result with
      | .error error => (.error error, ⟨cache, disk⟩)
      | .ok (shared, _) => (.ok ⟨shared, template.warnings⟩, ⟨cache, disk⟩)

/-- The program of a template given as bytes, which must be UTF-8. -/
def compileBytes (compiler : Compiler) (source : ByteArray) : CompileAction Compiled :=
  match String.fromUTF8? source with
  | none => throw (.unreadable .notText)
  | some text => compiler.compile text

/-- The program of a template file. -/
def compileFile (compiler : Compiler) (path : String) : CompileAction Compiled := do
  let source ← onFiles (.unreadableFile path) (Disk.readText path)
  compiler.compile source

end Compiler

end Mustache
