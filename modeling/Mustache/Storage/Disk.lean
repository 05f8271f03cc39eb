import Mustache.Storage.FileError
import Mustache.Storage.Path

/-!
# Disks

A tree of directories and files, as a value. Operations take paths, absolute or from the
working directory, and walk them name by name, so that each way of failing shows where it
arises. A disk may be told to fail one operation to come; that is how the behaviour of a
procedure under a fault is studied. There are no symbolic links, no permissions and no times of
files, and nobody else changes the disk in the meantime.
-/

namespace Mustache

/-- A file or a directory. The names of a directory are in the order in which it lists them. -/
inductive Entry where
  /-- A file with its content. -/
  | file (content : ByteArray)
  /-- A directory with what is in it. -/
  | directory (entries : List (String × Entry))
  deriving Inhabited

namespace Entry

/-- Whether an entry is a directory. -/
def isDirectory : Entry → Bool
  | .file _ => false
  | .directory _ => true

/-- The entry at a location, given by the names that lead to it. -/
def find? (entry : Entry) : List String → Option Entry
  | [] => some entry
  | name :: rest =>
    match entry with
    | .file _ => none
    | .directory entries =>
      match entries.lookup name with
      | none => none
      | some child => child.find? rest

/-- Entries with the one of a name replaced, or with one more at the end. -/
def upsert (name : String) (entry : Entry) : List (String × Entry) → List (String × Entry)
  | [] => [(name, entry)]
  | (other, existing) :: rest =>
    if other == name then (name, entry) :: rest else (other, existing) :: upsert name entry rest

/-- An entry with another one put at a location whose directory exists. -/
def insert (entry : Entry) (location : List String) (added : Entry) : Entry :=
  match location, entry with
  | [], _ => added
  | _ :: _, .file content => .file content
  | [name], .directory entries => .directory (upsert name added entries)
  | name :: next :: rest, .directory entries =>
    match entries.lookup name with
    | some child => .directory (upsert name (child.insert (next :: rest) added) entries)
    | none => .directory entries

/-- An entry without what is at a location. -/
def erase (entry : Entry) (location : List String) : Entry :=
  match location, entry with
  | [], entry => entry
  | _ :: _, .file content => .file content
  | [name], .directory entries => .directory (entries.filter (·.1 != name))
  | name :: next :: rest, .directory entries =>
    match entries.lookup name with
    | some child => .directory (upsert name (child.erase (next :: rest)) entries)
    | none => .directory entries

mutual

/-- All files in an entry with the names that lead to them. -/
def files : Entry → List (List String × ByteArray)
  | .file content => [([], content)]
  | .directory entries => filesOfList entries

/-- All files in a list of entries with the names that lead to them. -/
def filesOfList : List (String × Entry) → List (List String × ByteArray)
  | [] => []
  | (name, entry) :: rest =>
    (files entry).map (fun (location, content) => (name :: location, content)) ++ filesOfList rest

end

end Entry

/-- The files of a machine, and where relative paths start. -/
structure Disk where
  /-- The directory at the root. -/
  root : Entry
  /-- The names that lead to the working directory. -/
  workingDirectory : List String
  /-- After how many more operations one fails, if one is to fail. -/
  fault : Option Nat := none
  deriving Inhabited

/-- An operation on files. -/
abbrev FileAction := ExceptT FileError (StateM Disk)

namespace Disk

/-- Where a path leads. -/
inductive Place where
  /-- To an entry. -/
  | present (location : List String) (entry : Entry)
  /-- To a name that is free in an existing directory. -/
  | absent (directory : List String) (name : String)

/-- The length of the longest name, in bytes. -/
def maxNameBytes : Nat := 255

/-- The number of bytes from which a path is too long. -/
def maxPathBytes : Nat := 4096

/-- Why there is nothing under a name. -/
def missing (name : String) : FileError :=
  if name.utf8ByteSize > maxNameBytes then .nameTooLong else .notFound

/-- Where a sequence of names leads from a location. Whatever the next name is, even a dot, it
can only be followed from a directory. -/
def walk (root : Entry) (location : List String) : List String → Except FileError Place
  | [] =>
    match root.find? location with
    | some entry => .ok (.present location entry)
    | none => .error .notFound
  | name :: rest =>
    match root.find? location with
    | none => .error .notFound
    | some (.file _) => .error .notDirectory
    | some (.directory entries) =>
      if name == "." then walk root location rest
      else if name == ".." then walk root location.dropLast rest
      else
        match entries.lookup name, rest with
        | some _, _ => walk root (location ++ [name]) rest
        | none, [] => .ok (.absent location name)
        | none, _ :: _ => .error (missing name)

/-- Where a path leads, whether or not it ends in a slash. -/
def locate (disk : Disk) (path : String) : Except FileError Place :=
  if path.toList.contains '\x00' then .error .nulInName
  else if path.isEmpty then .error .notFound
  else if path.utf8ByteSize ≥ maxPathBytes then .error .nameTooLong
  else
    walk disk.root (if Path.isAbsolute path.toList then [] else disk.workingDirectory)
      (Path.names path)

/-- The entry to which a path leads. A path that ends in a slash leads to no file. -/
def entry (disk : Disk) (path : String) : Except FileError Entry :=
  match disk.locate path with
  | .error error => .error error
  | .ok (.absent _ name) => .error (missing name)
  | .ok (.present _ (.directory entries)) => .ok (.directory entries)
  | .ok (.present _ (.file content)) =>
    if Path.endsInSlash path then .error .notDirectory else .ok (.file content)

/-- Counts an operation; the one that is to fail fails. -/
def attempt : FileAction Unit := do
  let disk ← get
  match disk.fault with
  | none => pure ()
  | some 0 => do
    set { disk with fault := none }
    throw .device
  | some (remaining + 1) => set { disk with fault := some remaining }

/-- The outcome of an operation, failed or not. -/
def outcome {α : Type} (action : FileAction α) : StateM Disk (Except FileError α) :=
  action.run

/-- The bytes of a file. -/
def read (path : String) : FileAction ByteArray := do
  attempt
  match (← get).entry path with
  | .error error => throw error
  | .ok (.directory _) => throw .isDirectory
  | .ok (.file content) => pure content

/-- The text of a file. -/
def readText (path : String) : FileAction String := do
  let content ← read path
  match String.fromUTF8? content with
  | some text => pure text
  | none => throw .notText

/-- Puts bytes into a file, which is made if need be. A path that ends in a slash names no file
to be made, whatever is there. -/
def write (path : String) (content : ByteArray) : FileAction Unit := do
  attempt
  let disk ← get
  match disk.locate path with
  | .error error => throw error
  | .ok (.present _ (.directory _)) => throw .isDirectory
  | .ok (.present location (.file _)) =>
    if Path.endsInSlash path then throw .isDirectory
    else set { disk with root := disk.root.insert location (.file content) }
  | .ok (.absent directory name) =>
    if Path.endsInSlash path then throw .isDirectory
    else if name.utf8ByteSize > maxNameBytes then throw .nameTooLong
    else set { disk with root := disk.root.insert (directory ++ [name]) (.file content) }

/-- Makes a directory. -/
def createDirectory (path : String) : FileAction Unit := do
  attempt
  let disk ← get
  match disk.locate path with
  | .error error => throw error
  | .ok (.present _ _) => throw .alreadyExists
  | .ok (.absent directory name) =>
    if name.utf8ByteSize > maxNameBytes then throw .nameTooLong
    else set { disk with root := disk.root.insert (directory ++ [name]) (.directory []) }

/-- Whether a path leads to an entry. -/
def pathExists (path : String) : StateM Disk Bool := do
  match ← outcome attempt with
  | .error _ => pure false
  | .ok () =>
    match (← get).entry path with
    | .ok _ => pure true
    | .error _ => pure false

/-- Whether a path leads to a directory. -/
def isDirectory (path : String) : StateM Disk Bool := do
  match ← outcome attempt with
  | .error _ => pure false
  | .ok () =>
    match (← get).entry path with
    | .ok entry => pure entry.isDirectory
    | .error _ => pure false

/-- Overlooks that a directory could not be made when it is there. -/
def tolerate (path : String) (result : Except FileError Unit) : FileAction Unit := do
  match result with
  | .ok () => pure ()
  | .error error =>
    if ← isDirectory path then pure () else throw error

/-- Makes the first directory of a list, and before it, where they are missing, those of the
rest, each of which is the parent of the one before. -/
def createChain : List String → FileAction Unit
  | [] => throw .notFound
  | path :: parents =>
    if path.isEmpty then pure ()
    else do
      match ← ExceptT.lift (outcome (createDirectory path)) with
      | .error .notFound => do
        createChain parents
        tolerate path (← ExceptT.lift (outcome (createDirectory path)))
      | result => tolerate path result

/-- Makes a directory and its missing parents. It is no error if the directory exists. -/
def createDirectories (path : String) : FileAction Unit :=
  createChain (Path.ancestors path)

/-- Removes a file. -/
def remove (path : String) : FileAction Unit := do
  attempt
  let disk ← get
  match disk.locate path with
  | .error error => throw error
  | .ok (.absent _ name) => throw (missing name)
  | .ok (.present _ (.directory _)) => throw .isDirectory
  | .ok (.present location (.file _)) =>
    if Path.endsInSlash path then throw .notDirectory
    else set { disk with root := disk.root.erase location }

/-- Gives a file another name in one step. A file that has the name is replaced. -/
def rename (source target : String) : FileAction Unit := do
  attempt
  let disk ← get
  match disk.locate source, disk.locate target with
  | .error error, _ | _, .error error => throw error
  | .ok (.absent _ name), _ => throw (missing name)
  | .ok (.present _ (.directory _)), _ => throw .isDirectory
  | .ok (.present origin (.file content)), .ok (.absent directory name) =>
    if name.utf8ByteSize > maxNameBytes then throw .nameTooLong
    else if Path.endsInSlash source || Path.endsInSlash target then throw .notDirectory
    else set { disk with
      root := (disk.root.erase origin).insert (directory ++ [name]) (.file content) }
  | .ok (.present origin (.file content)), .ok (.present location replaced) =>
    if Path.endsInSlash source || Path.endsInSlash target then throw .notDirectory
    else if replaced.isDirectory then throw .isDirectory
    else if origin == location then pure ()
    else set { disk with root := (disk.root.erase origin).insert location (.file content) }

/-- The names in a directory, in its own order. -/
def list (path : String) : FileAction (List String) := do
  attempt
  match (← get).entry path with
  | .error error => throw error
  | .ok (.file _) => throw .notDirectory
  | .ok (.directory entries) => pure (entries.map (·.1))

/-- The files below a location, with the names that lead to them from there. -/
def filesBelow (disk : Disk) (location : List String) : List (List String × ByteArray) :=
  match disk.root.find? location with
  | some entry => entry.files
  | none => []

end Disk

end Mustache
