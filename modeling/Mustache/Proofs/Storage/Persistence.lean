import Mustache.Proofs.Program.Lowering
import Mustache.Proofs.Storage.Artifact
import Mustache.Proofs.Storage.Disk

/-!
# What is stored can be loaded

After a program was stored its file holds its instructions. A file that was written is loaded as
that program. A file that was left alone is loaded only if it also notes down the program's hash,
for storing looks at the instructions alone, and loading at both.
-/

namespace Mustache

namespace Storage

/-- A path leads to a file that `Artifact.parse?` reads as an artifact. -/
def Holds (disk : Disk) (path : String) (artifact : Artifact) : Prop :=
  ∃ content source, disk.entry path = .ok (.file content) ∧
    String.fromUTF8? content = some source ∧ Artifact.parse? source = some artifact

variable {disk after : Disk} {root path : String} {artifact : Artifact} {program : Program}

/-- The bytes of a text are read as that text. -/
theorem fromUTF8?_toByteArray (text : String) : String.fromUTF8? text.toByteArray = some text := by
  unfold String.fromUTF8?
  rw [dif_pos text.isValidUTF8]
  rfl

/-- The file of an artifact `Holds` the artifact. -/
theorem holds_of_entry (found : disk.entry path = .ok (.file artifact.text.toByteArray)) :
    Holds disk path artifact :=
  ⟨_, _, found, fromUTF8?_toByteArray _, artifact.parse?_text⟩

/-- What a file `Holds` depends on the files alone. -/
theorem Holds.of_sameFiles (holds : Holds disk path artifact) (same : disk.SameFiles after) :
    Holds after path artifact := by
  obtain ⟨content, source, found, isText, parsed⟩ := holds
  exact ⟨content, source, (same.entry_eq path).trans found, isText, parsed⟩

/-- A path leads to a file that `Holds` one artifact at most. -/
theorem Holds.unique {other : Artifact} (left : Holds disk path artifact)
    (right : Holds disk path other) : artifact = other := by
  obtain ⟨content, source, found, isText, parsed⟩ := left
  obtain ⟨content', source', found', isText', parsed'⟩ := right
  cases found.symm.trans found'
  cases isText.symm.trans isText'
  cases parsed.symm.trans parsed'
  rfl

/-- An artifact that `readArtifact` reads is what the file `Holds`. -/
theorem holds_of_readArtifact (read : readArtifact path disk = (.ok artifact, after)) :
    Holds disk path artifact := by
  rw [readArtifact, bind_apply, onFile] at read
  rcases readText : Disk.readText path disk with ⟨_ | source, counted⟩
  · rw [readText] at read
    cases read
  · rw [readText] at read
    obtain ⟨content, found, isText⟩ := Disk.readText_eq_ok readText
    simp only at read
    cases parsed : Artifact.parse? source with
    | none =>
      rw [parsed] at read
      cases read
    | some other =>
      rw [parsed] at read
      cases read
      exact ⟨content, source, found, isText, parsed⟩

/-- Reading an artifact with `readArtifact` leaves the files as they are. -/
theorem sameFiles_readArtifact (path : String) (disk : Disk) :
    disk.SameFiles (readArtifact path disk).2 := by
  have same := Disk.sameFiles_readText path disk
  rw [readArtifact, bind_apply, onFile]
  revert same
  rcases Disk.readText path disk with ⟨_ | source, counted⟩
  · exact fun same => same
  · intro same
    simp only
    cases Artifact.parse? source <;> exact same

/-- A program is stored for `isStored` if its path leads to an artifact with its instructions. -/
theorem isStored_apply (path : String) (program : Program) (disk : Disk) :
    isStored path program disk =
      match Disk.pathExists path disk with
      | (false, counted) => (.ok false, counted)
      | (true, counted) =>
        match readArtifact path counted with
        | (.error _, after) => (.ok false, after)
        | (.ok artifact, after) =>
          (.ok (artifact.instructions == program.instructions.toList), after) := by
  rw [isStored, bind_apply, look]
  rcases Disk.pathExists path disk with ⟨_ | _, counted⟩
  · rfl
  · simp only [if_true]
    rw [bind_apply, outcome]
    rcases readArtifact path counted with ⟨_ | _, after⟩ <;> rfl

/-- Looking with `isStored` leaves the files as they are, and the answer is true only if the
instructions are there. -/
theorem isStored_spec (path : String) (program : Program) (disk : Disk) :
    ∃ stored counted, isStored path program disk = (.ok stored, counted) ∧
      disk.SameFiles counted ∧ (stored = true → ∃ artifact, Holds disk path artifact ∧
        artifact.instructions = program.instructions.toList) := by
  have looked := Disk.sameFiles_pathExists path disk
  rw [isStored_apply]
  revert looked
  rcases Disk.pathExists path disk with ⟨_ | _, counted⟩
  · exact fun looked => ⟨false, counted, rfl, looked, nofun⟩
  · intro looked
    have read := sameFiles_readArtifact path counted
    simp only
    rcases readRun : readArtifact path counted with ⟨_ | artifact, after⟩
    · rw [readRun] at read
      exact ⟨false, after, rfl, looked.trans read, nofun⟩
    · rw [readRun] at read
      refine ⟨_, after, rfl, looked.trans read, fun same => ⟨artifact, ?_, eq_of_beq same⟩⟩
      obtain ⟨content, source, found, isText, parsed⟩ := holds_of_readArtifact readRun
      exact ⟨content, source, (looked.entry_eq path).symm.trans found, isText, parsed⟩

/-- An operation on files that succeeds by `onFile` as a step of storing has succeeded. -/
theorem onFile_eq_ok {α : Type} {action : FileAction α} {value : α}
    (done : onFile path action disk = (.ok value, after)) : action disk = (.ok value, after) := by
  rw [onFile] at done
  rcases run : action disk with ⟨_ | _, counted⟩
  · rw [run] at done
    cases done
  · rw [run] at done
    cases done
    rfl

/-- A step that succeeds went on from where the step before it succeeded. -/
theorem bind_eq_ok {α β : Type} {step : StorageAction α} {next : α → StorageAction β} {value : β}
    (done : (step >>= next) disk = (.ok value, after)) :
    ∃ first between, step disk = (.ok first, between) ∧
      next first between = (.ok value, after) := by
  rw [bind_apply] at done
  rcases run : step disk with ⟨_ | first, between⟩
  · rw [run] at done
    cases done
  · rw [run] at done
    exact ⟨first, between, rfl, done⟩

/-- A file that `writeArtifact` has written `Holds` the artifact of the program. -/
theorem holds_of_writeArtifact {now : Timestamp}
    (written : writeArtifact root now program disk = (.ok (), after)) :
    Holds after (Artifact.path root program.hash)
      ⟨program.hash, now, program.instructions.toList⟩ := by
  obtain ⟨_, made, _, afterMade⟩ := bind_eq_ok written
  obtain ⟨_, filled, writing, afterFilled⟩ := bind_eq_ok afterMade
  obtain ⟨result, named, moving, afterNamed⟩ := bind_eq_ok afterFilled
  have write := onFile_eq_ok writing
  rw [Artifact.temporaryPath_eq_join] at write
  obtain ⟨location, entries, there, found⟩ :=
    Disk.write_in_directory (Artifact.isPlain_temporaryName _) write
  cases result with
  | error error =>
    obtain ⟨_, _, _, thrown⟩ := bind_eq_ok afterNamed
    cases thrown
  | ok =>
    cases afterNamed
    rw [outcome] at moving
    rcases run : onFile (Artifact.path root program.hash)
      (Disk.rename (Artifact.temporaryPath root program.hash) (Artifact.path root program.hash))
      filled with ⟨result, last⟩
    rw [run] at moving
    cases moving
    have rename := onFile_eq_ok run
    rw [Artifact.temporaryPath_eq_join, Artifact.path_eq_join] at rename
    obtain ⟨fits, others, thereAfter, foundAfter⟩ := Disk.rename_in_directory
      (Artifact.isPlain_temporaryName _) (Artifact.isPlain_fileName _)
      (Artifact.temporaryName_ne_fileName _ _) there found rename
    exact holds_of_entry (thereAfter.entry_join (Artifact.isPlain_fileName _) fits foundAfter)

/-- To `persist` a program leaves the files alone if its instructions are in its file, and writes
its artifact otherwise. -/
theorem persist_eq_ok {now : Timestamp} {stored : Stored}
    (persisted : persist root now program disk = (.ok stored, after)) :
    (stored = .unchanged (Artifact.path root program.hash) ∧ disk.SameFiles after ∧
      ∃ artifact, Holds after (Artifact.path root program.hash) artifact ∧
        artifact.instructions = program.instructions.toList) ∨
    (stored = .written (Artifact.path root program.hash) ∧
      Holds after (Artifact.path root program.hash)
        ⟨program.hash, now, program.instructions.toList⟩) := by
  obtain ⟨there, counted, looked, same, truth⟩ :=
    isStored_spec (Artifact.path root program.hash) program disk
  rw [persist, bind_apply, looked] at persisted
  cases there with
  | true =>
    cases persisted
    obtain ⟨artifact, holds, instructions⟩ := truth rfl
    exact .inl ⟨rfl, same, artifact, holds.of_sameFiles same, instructions⟩
  | false =>
    obtain ⟨_, between, writing, rest⟩ := bind_eq_ok persisted
    cases rest
    exact .inr ⟨rfl, holds_of_writeArtifact writing⟩

/-- Without a fault to come `pathExists` sees the file of an artifact. -/
theorem pathExists_of_holds (calm : disk.fault = none) (holds : Holds disk path artifact) :
    Disk.pathExists path disk = (true, disk) := by
  obtain ⟨content, source, found, _, _⟩ := holds
  rw [Disk.pathExists_apply, Disk.attempt_of_calm calm]
  simp only [found]
  rfl

/-- Without a fault to come `readArtifact` reads what a file `Holds`. -/
theorem readArtifact_of_holds (calm : disk.fault = none) (holds : Holds disk path artifact) :
    readArtifact path disk = (.ok artifact, disk) := by
  obtain ⟨content, source, found, isText, parsed⟩ := holds
  rw [readArtifact, bind_apply, onFile, Disk.readText_of_calm calm found isText]
  simp only [parsed]
  rfl

/-- Without a fault to come a program is stored for `isStored` exactly if its file `Holds` its
instructions. -/
theorem isStored_of_holds (calm : disk.fault = none) (holds : Holds disk path artifact)
    (program : Program) :
    isStored path program disk =
      (.ok (artifact.instructions == program.instructions.toList), disk) := by
  rw [isStored_apply, pathExists_of_holds calm holds]
  simp only [readArtifact_of_holds calm holds]

/-- Without a fault to come `persist` leaves a program alone if its file `Holds` its instructions,
whatever hash the file notes down. -/
theorem persist_of_holds (calm : disk.fault = none) (now : Timestamp)
    (holds : Holds disk (Artifact.path root program.hash) artifact)
    (same : artifact.instructions = program.instructions.toList) :
    persist root now program disk =
      (.ok (.unchanged (Artifact.path root program.hash)), disk) := by
  rw [persist, bind_apply, isStored_of_holds calm holds, same, beq_self_eq_true]
  rfl

/-- Without a fault to come `load` gives the artifact that the file `Holds`, if it passes
`checkArtifact`. -/
theorem load_of_holds (calm : disk.fault = none) {hash : ContentHash}
    (holds : Holds disk (Artifact.path root hash) artifact) :
    load root hash disk =
      ((checkArtifact (Artifact.path root hash) hash artifact).map some, disk) := by
  rw [load, bind_apply, look, pathExists_of_holds calm holds]
  simp only [if_true]
  rw [bind_apply, readArtifact_of_holds calm holds]
  simp only
  cases checkArtifact (Artifact.path root hash) hash artifact <;> rfl

/-- An artifact with the instructions of a program passes `checkArtifact` under the program's hash
if it notes that hash down. -/
theorem checkArtifact_of_instructions
    (same : artifact.instructions = program.instructions.toList) (path : String) :
    checkArtifact path program.hash artifact =
      if artifact.hash = program.hash then .ok program
      else .error (.hashMismatch path program.hash artifact.hash) := by
  rw [checkArtifact, same, Program.make_toList_instructions]
  simp only [ne_eq, not_true_eq_false, if_false, ite_not]

/-- The directory of the programs below the directory at the root. -/
theorem directoryAt_slash (entries : List (String × Entry)) :
    ({ root := .directory [("stache", .directory [("programs", .directory entries)])],
        workingDirectory := [] } : Disk).DirectoryAt (Artifact.directory "/")
      ["stache", "programs"] entries := by
  have names : Path.names (Artifact.directory "/") = ["stache", "programs"] := by decide +kernel
  rw [Disk.DirectoryAt, names]
  simp [Disk.walk, Entry.find?]

/-- A disk with one file: that of a hash, with an artifact in it. -/
def shelf (hash : ContentHash) (artifact : Artifact) : Disk where
  root := .directory [("stache", .directory [("programs",
    .directory [(Artifact.fileName hash, .file artifact.text.toByteArray)])])]
  workingDirectory := []

/-- The path of a program's file below the directory at the root. -/
theorem path_slash (hash : ContentHash) :
    Artifact.path "/" hash = "/stache/programs/Program" ++ hash.text ++ ".json" := by
  have directory : (Artifact.directory "/").toList = "/stache/programs".toList := by
    decide +kernel
  rw [Artifact.path_eq_join, ← String.toList_inj,
    (Artifact.isPlain_fileName hash).toList_join, directory]
  simp [Artifact.fileName, Artifact.nameStart, Artifact.nameEnd]

/-- The path of a program's file below the directory at the root is not too long. -/
theorem fits_path_slash (hash : ContentHash) : Disk.Fits (Artifact.path "/" hash) := by
  rw [path_slash]
  have noNul : '\x00' ∉ Text.Hex.encode hash.bytes :=
    fun member => absurd (Text.Hex.mem_encode member) (by decide)
  refine ⟨?_, ?_, ?_⟩
  · simp [ContentHash.text, noNul]
  · simp
  · rw [String.utf8ByteSize_append, String.utf8ByteSize_append, ContentHash.utf8ByteSize_text]
    decide +kernel

/-- The directory of the programs on a `shelf` has the one file. -/
theorem directoryAt_shelf (hash : ContentHash) (artifact : Artifact) :
    (shelf hash artifact).DirectoryAt (Artifact.directory "/") ["stache", "programs"]
      [(Artifact.fileName hash, .file artifact.text.toByteArray)] :=
  directoryAt_slash _

/-- The file on a `shelf` `Holds` the artifact. -/
theorem holds_shelf (hash : ContentHash) (artifact : Artifact) :
    Holds (shelf hash artifact) (Artifact.path "/" hash) artifact :=
  holds_of_entry ((directoryAt_shelf hash artifact).entry_join (Artifact.isPlain_fileName hash)
    (fits_path_slash hash) List.lookup_cons_self)

/-- The program that writes one letter. -/
def letter : Program := ⟨#[.literal "x"], #[none], _, rfl, rfl⟩

/-- A program that `persist` has written is what `load` loads. One that was left alone is in its
file with its instructions, and it is loaded if the file notes down its hash and refused otherwise.
-/
theorem load_of_persist {now : Timestamp} {stored : Stored}
    (persisted : persist root now program disk = (.ok stored, after)) (calm : after.fault = none) :
    (stored = .written (Artifact.path root program.hash) ∧
      load root program.hash after = (.ok (some program), after)) ∨
    (stored = .unchanged (Artifact.path root program.hash) ∧ after.root = disk.root ∧
      ∃ artifact, Holds after (Artifact.path root program.hash) artifact ∧
        artifact.instructions = program.instructions.toList ∧
        load root program.hash after =
          (if artifact.hash = program.hash then .ok (some program)
            else .error (.hashMismatch (Artifact.path root program.hash) program.hash
              artifact.hash), after)) := by
  rcases persist_eq_ok persisted with ⟨rfl, same, artifact, holds, instructions⟩ | ⟨rfl, holds⟩
  · refine .inr ⟨rfl, same.root, artifact, holds, instructions, ?_⟩
    rw [load_of_holds calm holds, checkArtifact_of_instructions instructions]
    split <;> rfl
  · refine .inl ⟨rfl, ?_⟩
    rw [load_of_holds calm holds, checkArtifact_of_instructions rfl, if_pos rfl]
    rfl

/-- A program is loaded from a file with its artifact. -/
theorem load_of_persist_labelled :
    let disk := shelf letter.hash ⟨letter.hash, .epoch, [.literal "x"]⟩
    persist "/" .epoch letter disk = (.ok (.unchanged (Artifact.path "/" letter.hash)), disk) ∧
      disk.fault = none ∧ load "/" letter.hash disk = (.ok (some letter), disk) := by
  intro disk
  have holds := holds_shelf letter.hash ⟨letter.hash, .epoch, [.literal "x"]⟩
  have persisted := @persist_of_holds disk "/" _ letter rfl .epoch holds rfl
  refine ⟨persisted, rfl, ?_⟩
  rcases load_of_persist persisted rfl with ⟨written, _⟩ | ⟨_, _, found, inFile, _, loaded⟩
  · cases written
  · rw [loaded, inFile.unique holds, if_pos rfl]

/-- A program is left alone, and then not loaded, if its file notes down the hash of another. -/
theorem persist_and_load_mislabelled :
    let disk := shelf letter.hash ⟨default, .epoch, [.literal "x"]⟩
    persist "/" .epoch letter disk = (.ok (.unchanged (Artifact.path "/" letter.hash)), disk) ∧
      disk.fault = none ∧
      load "/" letter.hash disk =
        (.error (.hashMismatch (Artifact.path "/" letter.hash) letter.hash default), disk) := by
  intro disk
  have holds := holds_shelf letter.hash ⟨default, .epoch, [.literal "x"]⟩
  have differ : default ≠ letter.hash := by decide +kernel
  refine ⟨persist_of_holds rfl .epoch holds rfl, rfl, ?_⟩
  rw [load_of_holds rfl holds, @checkArtifact_of_instructions _ letter rfl, if_neg differ]
  rfl

end Storage

end Mustache
