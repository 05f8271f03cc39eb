import Mustache.Proofs.Render.MemoryTemplates
import Mustache.Proofs.Storage.CalmDisk

/-!
# Templates that are held in files

A compiler that loads templates from the files of a disk remembers the programs it built, under
their hashes, and the templates it loaded, under their names. While the disk stays as it is and
no fault is to come, none of this shows: with a cache that is faithful to the templates each name
is answered with the program of its own file (`load_of_knows`).
-/

namespace Mustache

namespace Compiler

variable {compiler : Compiler} {disk : Disk} {root extension name : String}
  {forms : List Instruction → Prop} {instructions : List Instruction} {library : Library}

/-- A path leads to a template whose tree has some instructions (`Instruction.ofNodes`). -/
def Spells (compiler : Compiler) (disk : Disk) (path : String) (instructions : List Instruction) :
    Prop :=
  ∃ source template, (Disk.readText path disk).1 = .ok source ∧
    Template.parse compiler.delimiters source = .ok template ∧
    instructions = Instruction.ofNodes template.nodes

/-- What a name is answered with from the files of a disk: the program of its own file. -/
def fileAnswer (compiler : Compiler) (root extension : String) (disk : Disk) (name : String) :
    Except RenderError Program :=
  let path := TemplateSource.filePath root extension name
  match (Disk.readText path disk).1 with
  | .error .notFound => .error (.templateNotFound name path)
  | .error error => .error (.unreadable path error)
  | .ok source => (compiler.programOf source).mapError .uncompiled

/-- What `fileAnswer` answers a name with has the instructions of its file (`Compiler.Spells`). -/
theorem spells_of_fileAnswer {program : Program}
    (answered : compiler.fileAnswer root extension disk name = .ok program) :
    compiler.Spells disk (TemplateSource.filePath root extension name)
      program.instructions.toList := by
  unfold fileAnswer at answered
  simp only at answered
  split at answered
  · cases answered
  · cases answered
  · next source readable =>
    rw [programOf] at answered
    cases parsed : Template.parse compiler.delimiters source with
    | error =>
      rw [parsed] at answered
      cases answered
    | ok template =>
      obtain ⟨made, sameMade, same⟩ := Program.exists_make_ofNodes template.nodes
      rw [parsed] at answered
      simp only [Except.mapError, bind, Except.bind, sameMade] at answered
      cases answered
      exact ⟨source, template, readable, parsed, same⟩

/-- A library on a disk that remembers nothing but what the files hold. -/
structure Knows (compiler : Compiler) (root extension : String) (disk : Disk)
    (forms : List Instruction → Prop) (library : Library) : Prop where
  /-- The files are those of the disk. -/
  files : library.workshop.disk = disk
  /-- What was compiled or taken over has the instructions under whose hash it is. -/
  cache : library.workshop.cache.FaithfulTo forms
  /-- What was loaded is what the names are answered with. -/
  loaded : ∀ name shared, library.loaded.lookup name = some shared →
    compiler.fileAnswer root extension disk name = .ok shared.program

/-- A library that has loaded nothing by name knows what its cache knows. -/
theorem knows_start {cache : ProgramCache} (faithful : cache.FaithfulTo forms) :
    compiler.Knows root extension disk forms { workshop := ⟨cache, disk⟩ } :=
  ⟨rfl, faithful, fun _ _ found => nomatch found⟩

/-- A name is looked up by `Compiler.load` among the names that were loaded, and then among the
files. -/
theorem load_files (name : String) (library : Library) :
    compiler.load (.files root extension) name library =
      match library.loaded.lookup name with
      | some shared => (.ok shared, library)
      | none =>
        match readToLoad name (TemplateSource.filePath root extension name) library with
        | (.error error, after) => (.error error, after)
        | (.ok source, after) =>
          match compiler.compileToLoad source after with
          | (.error error, last) => (.error error, last)
          | (.ok compiled, last) =>
            (.ok compiled.shared, { last with loaded := (name, compiled.shared) :: last.loaded }) := by
  simp only [load, bind_apply, get_apply]
  cases library.loaded.lookup name with
  | some shared => rfl
  | none =>
    simp only
    rw [bind_apply]
    rcases readToLoad name (TemplateSource.filePath root extension name) library with
      ⟨_ | source, after⟩
    · rfl
    · simp only
      rw [bind_apply]
      rcases compiler.compileToLoad source after with ⟨_ | _, _⟩ <;> rfl

/-- A library that knows the files (`Compiler.Knows`) answers a name from them and goes on knowing
them, if its cache is faithful to the template of that name. -/
theorem load_of_knows (calm : disk.fault = none) (silent : compiler.dumpDirectory = none)
    (apart : Instruction.Apart forms forms)
    (covers : ∀ instructions, compiler.Spells disk (TemplateSource.filePath root extension name)
      instructions → forms instructions)
    (knows : compiler.Knows root extension disk forms library) :
    ((compiler.loader (.files root extension)).load name library).1 =
        compiler.fileAnswer root extension disk name ∧
      compiler.Knows root extension disk forms
        ((compiler.loader (.files root extension)).load name library).2 := by
  rw [loader_apply, load_files]
  cases found : library.loaded.lookup name with
  | some shared => exact ⟨(knows.loaded name shared found).symm, knows⟩
  | none =>
    have unchanged := Disk.readText_disk_of_calm calm
      (TemplateSource.filePath root extension name)
    have answer : compiler.fileAnswer root extension disk name = _ := fileAnswer.eq_def ..
    simp only at answer
    rw [readToLoad, knows.files]
    rcases read : Disk.readText (TemplateSource.filePath root extension name) disk with
      ⟨error | source, after⟩
    · rw [read] at answer unchanged
      cases unchanged
      refine ⟨?_, rfl, knows.cache, knows.loaded⟩
      rw [answer]
      cases error <;> rfl
    · rw [read] at answer unchanged
      cases unchanged
      simp only at answer ⊢
      rw [compileToLoad]
      cases parsed : Template.parse compiler.delimiters source with
      | error =>
        rw [answer, programOf, parsed, compile_of_parse_error parsed]
        exact ⟨rfl, rfl, knows.cache, knows.loaded⟩
      | ok template =>
        have formed := covers _ ⟨source, template, by rw [read], parsed, rfl⟩
        obtain ⟨shared, cache, compiles, made, kept⟩ := compile_of_faithfulTo silent apart parsed
          formed { library.workshop with disk := after } knows.cache
        have own : compiler.fileAnswer root extension after name = .ok shared.program := by
          rw [answer, programOf, parsed]
          simp only [Except.mapError, bind, Except.bind, made]
        rw [compiles]
        refine ⟨own.symm, rfl, kept, ?_⟩
        intro other entered entry
        rw [List.lookup_cons] at entry
        split at entry
        · next same =>
          cases entry
          rw [eq_of_beq same]
          exact own
        · exact knows.loaded other entered entry

end Compiler

end Mustache
