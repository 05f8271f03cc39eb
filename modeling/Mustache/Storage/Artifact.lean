import Mustache.Compile.Error
import Mustache.Program.Cache
import Mustache.Program.Json
import Mustache.Storage.Disk
import Mustache.Storage.Timestamp

/-!
# Artifacts

Programs on disk. Each program has a file of its own, named for its hash, in a directory below
a root. A file is written under another name first and then renamed, and not written at all if
the program is there already. What is read back counts only if its instructions have the hash
that its name promises.
-/

namespace Mustache

/-- What the file of a program holds. -/
structure Artifact where
  /-- The hash of the program. -/
  hash : ContentHash
  /-- When the file was written. -/
  persistedAt : Timestamp
  /-- The instructions of the program. -/
  instructions : List Instruction

/-- Why a program is not stored or loaded. -/
inductive StorageError where
  /-- An operation on files failed. -/
  | fileFailed (path : String) (cause : FileError)
  /-- The content of a file is no artifact. -/
  | malformed
  /-- The content of a file has another hash than its name says. -/
  | hashMismatch (path : String) (expected found : ContentHash)
  /-- The name of a file promises a hash and gives none. -/
  | invalidName (name : String)
  /-- The instructions make no program. -/
  | uncompiled (error : CompileError)
  deriving DecidableEq, Inhabited

namespace StorageError

/-- What is said about a storage error. -/
def message : StorageError → String
  | .fileFailed path cause => s!"I/O error at {path}: " ++ cause.message
  | .malformed => "artifact JSON error"
  | .hashMismatch path expected found =>
    s!"artifact {path} is corrupt: expected hash " ++ expected.text ++ ", found " ++ found.text
  | .invalidName name => s!"invalid artifact name '{name}'"
  | .uncompiled error => error.message

/-- What lies behind a storage error. -/
def causes : StorageError → List String
  | .fileFailed _ cause => [cause.message]
  | .uncompiled error => error.causes
  | _ => []

end StorageError

namespace Artifact

/-- An artifact as a document. -/
def document (artifact : Artifact) : Document :=
  .object [
    ("hash", .string artifact.hash.text),
    ("persisted_at", .string artifact.persistedAt.text),
    ("instructions", Instruction.documents artifact.instructions)]

/-- The text of an artifact's file. -/
def text (artifact : Artifact) : String :=
  artifact.document.write .pretty

/-- The artifact with three parts, if the instructions are nested at most `depth` deep. -/
def ofParts? (depth : Nat) (hash persistedAt instructions : Json.Tree) : Option Artifact := do
  let hash ← (ContentHash.ofHex (← hash.text?)).toOption
  let persistedAt ← Timestamp.ofText? (← persistedAt.text?)
  let instructions ← Instruction.listOfTree? depth instructions
  return ⟨hash, persistedAt, instructions⟩

/-- The artifact that a tree stands for: an object with the three parts under their names, or a
list of the three parts. -/
def ofTree? : Json.Tree → Option Artifact
  | .object members => do
    let fields ← Json.Fields.ofMembers? members
    ofParts? (Document.maxDepth - 1) (← fields.required? "hash")
      (← fields.required? "persisted_at") (← fields.required? "instructions")
  | .array [hash, persistedAt, instructions] =>
    ofParts? (Document.maxDepth - 1) hash persistedAt instructions
  | _ => none

/-- The artifact that a text spells. -/
def parse? (source : String) : Option Artifact :=
  (Json.Tree.parse? source).bind ofTree?

/-- The text before the hash in the name of a file. -/
def nameStart : String := "Program"

/-- The text after the hash in the name of a file. -/
def nameEnd : String := ".json"

/-- The directory of the programs below a root. -/
def directory (root : String) : String :=
  Path.join (Path.join root "stache") "programs"

/-- The path of the file of a program. -/
def path (root : String) (hash : ContentHash) : String :=
  Path.join (directory root) (nameStart ++ hash.text ++ nameEnd)

/-- The path under which the file of a program is written first. -/
def temporaryPath (root : String) (hash : ContentHash) : String :=
  path root hash ++ ".tmp"

/-- The digits in the name of a file, if it has the form of a program's file name. -/
def digitsOfName? (name : String) : Option String := do
  let rest ← nameStart.toList.isPrefixOf? name.toList
  let digits ← nameEnd.toList.isSuffixOf? rest
  return String.ofList digits

end Artifact

/-- What became of a program that was to be stored. -/
inductive Stored where
  /-- Its file was written. -/
  | written (path : String)
  /-- Its file was there. -/
  | unchanged (path : String)
  deriving Repr, DecidableEq, Inhabited

namespace Stored

/-- The path of the program's file. -/
def path : Stored → String
  | .written path | .unchanged path => path

/-- Whether the file was written. -/
def isWritten : Stored → Bool
  | .written _ => true
  | .unchanged _ => false

end Stored

/-- A step of storing or loading programs. -/
abbrev StorageAction := ExceptT StorageError (StateM Disk)

namespace Storage

/-- An operation on files as a step of storing or loading. -/
def onFile {α : Type} (path : String) (action : FileAction α) : StorageAction α := fun disk =>
  match action disk with
  | (.error error, disk) => (.error (.fileFailed path error), disk)
  | (.ok value, disk) => (.ok value, disk)

/-- A step of storing or loading, failed or not. -/
def outcome {α : Type} (action : StorageAction α) : StorageAction (Except StorageError α) :=
  fun disk =>
    match action disk with
    | (result, disk) => (.ok result, disk)

/-- A look at the disk as a step of storing or loading. -/
def look {α : Type} (action : StateM Disk α) : StorageAction α := fun disk =>
  match action disk with
  | (value, disk) => (.ok value, disk)

/-- The artifact in a file. -/
def readArtifact (path : String) : StorageAction Artifact := do
  let source ← onFile path (Disk.readText path)
  match Artifact.parse? source with
  | some artifact => return artifact
  | none => throw .malformed

/-- Whether a file holds the instructions of a program already. -/
def isStored (path : String) (program : Program) : StorageAction Bool := do
  if ← look (Disk.pathExists path) then
    match ← outcome (readArtifact path) with
    | .ok artifact => return artifact.instructions == program.instructions.toList
    | .error _ => return false
  else return false

/-- Writes the file of a program: first under another name, which is then changed. -/
def writeArtifact (root : String) (now : Timestamp) (program : Program) : StorageAction Unit := do
  let path := Artifact.path root program.hash
  let temporary := Artifact.temporaryPath root program.hash
  let artifact : Artifact := ⟨program.hash, now, program.instructions.toList⟩
  onFile (Artifact.directory root) (Disk.createDirectories (Artifact.directory root))
  onFile temporary (Disk.write temporary artifact.text.toByteArray)
  match ← outcome (onFile path (Disk.rename temporary path)) with
  | .ok () => pure ()
  | .error error => do
    let _ ← outcome (onFile temporary (Disk.remove temporary))
    throw error

/-- Stores a program, unless its file holds its instructions already. -/
def persist (root : String) (now : Timestamp) (program : Program) : StorageAction Stored := do
  let path := Artifact.path root program.hash
  if ← isStored path program then return .unchanged path
  else do
    writeArtifact root now program
    return .written path

/-- Stores all programs of a cache. -/
def persistAll (root : String) (now : Timestamp) (cache : ProgramCache) :
    StorageAction (List Stored) :=
  cache.programs.mapM fun shared => persist root now shared.program

/-- The program of an artifact that was found under a hash. Both the hash of its instructions
and the one that it notes down must be that hash. -/
def checkArtifact (path : String) (expected : ContentHash) (artifact : Artifact) :
    Except StorageError Program :=
  match Program.make artifact.instructions with
  | .error error => .error (.uncompiled error)
  | .ok program =>
    if program.hash ≠ expected then .error (.hashMismatch path expected program.hash)
    else if artifact.hash ≠ expected then .error (.hashMismatch path expected artifact.hash)
    else .ok program

/-- The program that is stored under a hash, if there is one. -/
def load (root : String) (hash : ContentHash) : StorageAction (Option Program) := do
  let path := Artifact.path root hash
  if ← look (Disk.pathExists path) then
    let artifact ← readArtifact path
    match checkArtifact path hash artifact with
    | .ok program => return some program
    | .error error => throw error
  else return none

end Storage

/-- A step that loads programs into a cache. -/
abbrev WarmAction := ExceptT StorageError (StateM (ProgramCache × Disk))

namespace Storage

/-- A step of storing or loading beside a cache. -/
def besideCache {α : Type} (action : StorageAction α) : WarmAction α := fun (cache, disk) =>
  match action disk with
  | (result, disk) => (result, cache, disk)

/-- Loads the program of one file into the cache. The answer is whether there was one. -/
def warmFile (root name : String) : WarmAction Bool :=
  match Artifact.digitsOfName? name with
  | none => return false
  | some digits =>
    match ContentHash.ofHex digits with
    | .error _ => throw (.invalidName name)
    | .ok hash => do
      match ← besideCache (load root hash) with
      | none => return false
      | some program =>
        modify fun (cache, disk) => ((cache.insert program).2, disk)
        return true

/-- Loads all stored programs into the cache. The answer is how many there were. -/
def warm (root : String) : WarmAction Nat := do
  let directory := Artifact.directory root
  if ← besideCache (look (Disk.pathExists directory)) then
    let names ← besideCache (onFile directory (Disk.list directory))
    let loaded ← names.mapM (warmFile root)
    return loaded.countP id
  else return 0

end Storage

end Mustache
