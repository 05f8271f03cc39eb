import Mustache.Proofs.Render.Loads
import Mustache.Proofs.Storage.LexicalPaths

/-!
# Where templates are read

A template name is the path of its file below the root, and nobody looks at it: an absolute name
stands for itself, and double dots climb out of the root. So the file of a name is below the root
exactly if the name, as worked out on paper, comes back to it (`Compiler.load_below_root`). It is so
for every root if the name is relative and climbs nowhere, as without double dots.
-/

namespace Mustache

namespace TemplateSource

variable {extension name : String}

/-- How the file of a template is called, below the root (`filePath`). -/
def fileName (extension name : String) : String :=
  if (Path.extension? name.toList).isSome || extension.isEmpty then name
  else name ++ "." ++ extension

theorem filePath_eq_join (root extension name : String) :
    filePath root extension name = Path.join root (fileName extension name) := by
  rw [filePath, fileName]
  split <;> rfl

/-- The extension that `fileName` adds does not make a name absolute. -/
theorem isAbsolute_fileName (extension name : String) :
    Path.isAbsolute (fileName extension name).toList = Path.isAbsolute name.toList := by
  rw [fileName]
  split
  · rfl
  · rw [String.toList_append, String.toList_append]
    cases name.toList <;> rfl

/-- Without double dots a name leads forward, and so does what `fileName` makes of it. -/
theorem forward_fileName (forward : ".." ∉ Path.names name) (noSlash : '/' ∉ extension.toList)
    (noDot : extension.toList.head? ≠ some '.') : ".." ∉ Path.names (fileName extension name) := by
  rw [fileName]
  split
  · exact forward
  · next extended =>
    rw [Bool.or_eq_true, not_or] at extended
    refine Path.forward_append_extension forward ?_ noSlash noDot
    intro empty
    exact extended.2 (String.isEmpty_iff.2 (String.toList_inj.1 empty))

end TemplateSource

namespace Compiler

open TemplateSource

variable {compiler : Compiler} {root extension name : String} {library after : Library}
  {shared : SharedProgram}

/-- What `load` loads under a name that is not remembered is the file at the path of the name. -/
theorem exists_locate_of_load (free : library.loaded.lookup name = none)
    (loads : compiler.load (.files root extension) name library = (.ok shared, after)) :
    ∃ location content, library.workshop.disk.locate (filePath root extension name) =
      .ok (.present location (.file content)) := by
  rw [load_files_of_free free] at loads
  rcases read : Disk.readText (filePath root extension name) library.workshop.disk with
    ⟨cause | source, disk⟩
  · rw [read] at loads
    cases loads
  · obtain ⟨content, found, _⟩ := Disk.readText_eq_ok read
    rw [Disk.entry] at found
    split at found
    · cases found
    · cases found
    · cases found
    · next location content located => exact ⟨location, content, located⟩

/-- The file that `Compiler.load` reads for a template is below the root exactly if its name is an
absolute path below the root, or a relative path that climbs no higher than the root has names, or
nobody can, and comes back into the names that it climbed out of. It is below every root exactly if
the name is relative and climbs nowhere, as is one without double dots. What is loaded is then below
the directory of the root. -/
theorem load_below_root (compiler : Compiler) (root extension name : String) :
    let base := Path.reduce root
    let told := Path.reduce (fileName extension name)
    let file := Path.reduce (filePath root extension name)
    (base.Contains file ↔
      if Path.isAbsolute name.toList then base.Contains told
      else (base.absolute = true ∨ told.climbs ≤ base.names.length) ∧
        base.names.drop (base.names.length - told.climbs) <+: told.names) ∧
      ((∀ root, (Path.reduce root).Contains (Path.reduce (filePath root extension name))) ↔
        Path.isAbsolute name.toList = false ∧ told.climbs = 0) ∧
      (".." ∉ Path.names name → '/' ∉ extension.toList → extension.toList.head? ≠ some '.' →
        told.climbs = 0) ∧
      ∀ library shared after, library.loaded.lookup name = none →
        compiler.load (.files root extension) name library = (.ok shared, after) →
        ∃ location content,
          library.workshop.disk.locate (filePath root extension name) =
            .ok (.present location (.file content)) ∧
          (base.Contains file →
            base.under library.workshop.disk.workingDirectory <+: location) := by
  intro base told file
  have absolute := isAbsolute_fileName extension name
  refine ⟨?_, ?_, ?_, ?_⟩
  · rw [show file = _ from congrArg Path.reduce (filePath_eq_join root extension name)]
    split
    · next isAbsolute => rw [Path.join_of_absolute (absolute.trans isAbsolute)]
    · next isRelative =>
      exact Path.contains_join_of_relative (absolute.trans (Bool.eq_false_iff.2 isRelative)) root
  · simp only [filePath_eq_join]
    rw [Path.forall_contains_join_iff, Path.absolute_reduce, absolute]
  · intro forward noSlash noDot
    exact Path.climbs_reduce_of_forward (forward_fileName forward noSlash noDot)
  · intro library shared after free loads
    obtain ⟨location, content, located⟩ := exists_locate_of_load free loads
    refine ⟨location, content, located, ?_⟩
    intro contains
    have here : location = file.under _ := Disk.location_eq_under located
    rw [here]
    exact contains.under_prefix _

/-- A template in a directory below the root. -/
theorem load_below_root_nested :
    let disk : Disk := {
      root := .directory
        [("t", .directory [("a", .directory [("b.mustache", .file "x".toByteArray)])])]
      workingDirectory := [] }
    let start : Library := { workshop := ⟨.empty, disk⟩ }
    ".." ∉ Path.names "a/b" ∧ '/' ∉ "mustache".toList ∧ "mustache".toList.head? ≠ some '.' ∧
      start.loaded.lookup "a/b" = none ∧
      (∀ root, (Path.reduce root).Contains (Path.reduce (filePath root "mustache" "a/b"))) ∧
      ∃ shared after location content,
        ({} : Compiler).load (.files "t" "mustache") "a/b" start = (.ok shared, after) ∧
        disk.locate "t/a/b.mustache" = .ok (.present location (.file content)) ∧
        ["t"] <+: location := by
  intro disk start
  have forward : ".." ∉ Path.names "a/b" := by decide +kernel
  have noSlash : '/' ∉ "mustache".toList := by decide
  have noDot : "mustache".toList.head? ≠ some '.' := by decide
  obtain ⟨_, everywhere, level, loaded⟩ := load_below_root {} "t" "mustache" "a/b"
  have contained := everywhere.2 ⟨by decide +kernel, level forward noSlash noDot⟩
  have loads : (({} : Compiler).load (.files "t" "mustache") "a/b" start).1.isOk = true := by
    decide +kernel
  rcases load : ({} : Compiler).load (.files "t" "mustache") "a/b" start with ⟨_ | shared, after⟩
  · rw [load] at loads
    cases loads
  · obtain ⟨location, content, located, below⟩ := loaded start shared after rfl load
    have path : filePath "t" "mustache" "a/b" = "t/a/b.mustache" := by decide +kernel
    have base : (Path.reduce "t").under start.workshop.disk.workingDirectory = ["t"] := by
      decide +kernel
    exact ⟨forward, noSlash, noDot, rfl, contained, shared, after, location, content, rfl,
      path ▸ located, base ▸ below (contained "t")⟩

/-- A template may call a partial that is read outside the root, by double dots or by an absolute
name. -/
theorem filePath_outside_root :
    let disk : Disk := {
      root := .directory
        [("t", .directory []), ("secret.mustache", .file "outside".toByteArray)]
      workingDirectory := [] }
    (Template.parse .standard "\x7b\x7b>../secret\x7d\x7d\x7b\x7b>/secret\x7d\x7d").toOption.map
        (fun template => Instruction.ofNodes template.nodes) =
      some [.partialCall "../secret", .partialCall "/secret"] ∧
    ∀ name ∈ ["../secret", "/secret"],
      ¬ (Path.reduce "t").Contains (Path.reduce (filePath "t" "mustache" name)) ∧
      (Disk.readText (filePath "t" "mustache" name) disk).1 = .ok "outside" := by
  decide +kernel

end Compiler

end Mustache
