import Mustache.Proofs.Compile.FaithfulCache
import Mustache.Proofs.Render.Continuation

/-!
# Templates that are held in memory

A compiler that loads templates from a list of texts remembers the programs it built, under their
hashes. What it remembers does not show: unless the lowered forms of two of the templates
collide, each name is always answered with the program of its own text.
-/

namespace Mustache

namespace Compiler

/-- The lowered forms of the templates among some texts do not collide. -/
def Apart (compiler : Compiler) (sources : List String) : Prop :=
  ∀ left ∈ sources, ∀ right ∈ sources, ∀ leftTemplate rightTemplate,
    Template.parse compiler.delimiters left = .ok leftTemplate →
    Template.parse compiler.delimiters right = .ok rightTemplate →
    ¬ Sha256.Collide (Instruction.lowered (Instruction.ofNodes leftTemplate.nodes)).toByteArray
      (Instruction.lowered (Instruction.ofNodes rightTemplate.nodes)).toByteArray

/-- What a cache holds under the hash of one of some templates has the template's instructions, as
`ProgramCache.FaithfulTo` says of instructions. -/
def Faithful (compiler : Compiler) (sources : List String) (cache : ProgramCache) : Prop :=
  ∀ source ∈ sources, ∀ template, Template.parse compiler.delimiters source = .ok template →
    ∀ shared, cache.get? (ContentHash.ofText
        (Instruction.lowered (Instruction.ofNodes template.nodes))) = some shared →
      Program.make (Instruction.ofNodes template.nodes) = .ok shared.program

/-- The program of a text, whatever was compiled before (`Program.make`). -/
def programOf (compiler : Compiler) (source : String) : Except CompileError Program := do
  let template ← (Template.parse compiler.delimiters source).mapError .malformed
  Program.make (Instruction.ofNodes template.nodes)

variable {compiler : Compiler} {sources : List String}

/-- The instructions of the templates among some texts. -/
def FormsOf (compiler : Compiler) (sources : List String) (instructions : List Instruction) :
    Prop :=
  ∃ source ∈ sources, ∃ template, Template.parse compiler.delimiters source = .ok template ∧
    instructions = Instruction.ofNodes template.nodes

/-- Templates do not collide (`Compiler.Apart`) if their instructions do not. -/
theorem apart_formsOf (apart : compiler.Apart sources) :
    Instruction.Apart (compiler.FormsOf sources) (compiler.FormsOf sources) := by
  rintro _ ⟨left, leftMember, leftTemplate, leftParsed, rfl⟩ _
    ⟨right, rightMember, rightTemplate, rightParsed, rfl⟩
  exact apart left leftMember right rightMember leftTemplate rightTemplate leftParsed rightParsed

/-- A cache is `Faithful` to some texts if it is so to the instructions of their templates. -/
theorem faithful_iff {cache : ProgramCache} :
    compiler.Faithful sources cache ↔ cache.FaithfulTo (compiler.FormsOf sources) := by
  constructor
  · rintro faithful _ ⟨source, member, template, parsed, rfl⟩ shared found
    exact Program.toList_instructions_of_make (faithful source member template parsed shared found)
  · intro faithful source member template parsed shared found
    rw [← faithful _ ⟨source, member, template, parsed, rfl⟩ shared found]
    exact Program.make_toList_instructions shared.program

/-- Compiling one of some templates that do not collide gives its own program and leaves a cache
that is `Faithful` to all of them. -/
theorem compile_of_faithful (silent : compiler.dumpDirectory = none)
    (apart : compiler.Apart sources) {source : String} (member : source ∈ sources)
    {workshop : Workshop} (faithful : compiler.Faithful sources workshop.cache) :
    (compiler.compile source workshop).1.map (·.shared.program) = compiler.programOf source ∧
      compiler.Faithful sources (compiler.compile source workshop).2.cache := by
  rw [programOf]
  cases parsed : Template.parse compiler.delimiters source with
  | error =>
    rw [compile_of_parse_error parsed]
    exact ⟨rfl, faithful⟩
  | ok template =>
    obtain ⟨shared, cache, compiles, made, kept⟩ := compile_of_faithfulTo silent
      (apart_formsOf apart) parsed ⟨source, member, template, parsed, rfl⟩
      workshop (faithful_iff.1 faithful)
    rw [compiles]
    exact ⟨made.symm, faithful_iff.2 kept⟩

/-- A loader answers with the program of the instance that `Compiler.load` loads. -/
theorem loader_apply (templates : TemplateSource) (name : String) (library : Library) :
    (compiler.loader templates).load name library =
      ((compiler.load templates name library).1.map (·.program),
        (compiler.load templates name library).2) := by
  unfold loader
  simp only [bind_apply]
  rcases compiler.load templates name library with ⟨_ | _, _⟩ <;> rfl

/-- From memory a name is answered by `load` with what compiling its text gives. -/
theorem load_memory (templates : List (String × String)) (name : String) (library : Library) :
    compiler.load (.memory templates) name library =
      match templates.lookup name with
      | none => (.error (.templateNotFound name name), library)
      | some source =>
        (((compiler.compile source library.workshop).1.map (·.shared)).mapError .uncompiled,
          { library with workshop := (compiler.compile source library.workshop).2 }) := by
  simp only [load]
  cases templates.lookup name with
  | none => rfl
  | some source =>
    simp only [bind_apply, compileToLoad]
    rcases compiler.compile source library.workshop with ⟨_ | _, _⟩ <;> rfl

/-- A loader over templates in memory that do not collide is `Steady`: it answers each name with the
program of its text, whatever it was asked before. -/
theorem loader_memory_steady (silent : compiler.dumpDirectory = none)
    {templates : List (String × String)} (apart : compiler.Apart (templates.map (·.2)))
    (disk : Disk) :
    (compiler.loader (.memory templates)).Steady { workshop := Workshop.ofDisk disk } := by
  refine ⟨fun name =>
      match templates.lookup name with
      | none => .error (.templateNotFound name name)
      | some source => (compiler.programOf source).mapError .uncompiled,
    fun library => compiler.Faithful (templates.map (·.2)) library.workshop.cache, ?_, ?_⟩
  · intro source member template parsed shared found
    cases found
  · intro name library faithful
    rw [loader_apply, load_memory]
    cases found : templates.lookup name with
    | none =>
      simp only [found]
      exact ⟨rfl, faithful⟩
    | some source =>
      have member : source ∈ templates.map (·.2) := by
        obtain ⟨before, after, rfl, _⟩ := List.lookup_eq_some_iff.1 found
        simp
      obtain ⟨answered, kept⟩ := compile_of_faithful silent apart member faithful
      simp only [found]
      refine ⟨?_, kept⟩
      rw [← answered]
      cases (compiler.compile source library.workshop).1 <;> rfl

end Compiler

end Mustache
