import Mustache.CommandLine.Run
import Std.Time.DateTime.Timestamp

/-!
# The program

Takes the arguments and the environment, reads the files that the command may look at, runs the
command on them as values, and then writes the files that it changed and what it printed.
-/

namespace Mustache

namespace Snapshot

/-- The path of a location from the root. -/
def absolute (location : List String) : String :=
  "/" ++ String.intercalate "/" location

/-- A disk with what is at the end of some names from a location, as far as it exists. -/
partial def addNames (disk : Disk) (location : List String) : List String → IO Disk
  | [] => return disk
  | "." :: rest => addNames disk location rest
  | ".." :: rest => addNames disk location.dropLast rest
  | name :: rest => do
    let location := location ++ [name]
    let place := (← IO.currentDir) / absolute location
    if ← place.isDir then
      let root := match disk.root.find? location with
        | some _ => disk.root
        | none => disk.root.insert location (.directory [])
      addNames { disk with root := root } location rest
    else if ← place.pathExists then
      let content ← IO.FS.readBinFile place
      return { disk with root := disk.root.insert location (.file content) }
    else return disk

/-- A disk with what a path leads to. -/
def add (disk : Disk) (path : String) : IO Disk :=
  let start := if Path.isAbsolute path.toList then [] else disk.workingDirectory
  addNames disk start (Path.names path)

/-- A disk with a directory and what is directly in it. -/
def addDirectory (disk : Disk) (path : String) : IO Disk := do
  let place := (← IO.currentDir) / path
  let disk ← add disk path
  if ← place.isDir then
    (← place.readDir).toList.foldlM
      (fun disk entry => add disk (Path.join path entry.fileName)) disk
  else return disk

/-- A disk with a template file and the templates that it calls. -/
partial def addTemplates (root extension : String) (seen : List String) (disk : Disk)
    (path : String) : IO Disk := do
  if seen.contains path then return disk
  let disk ← add disk path
  match (Disk.readText path).run disk with
  | (.error _, _) => return disk
  | (.ok source, _) =>
    match Template.parse .standard source with
    | .error _ => return disk
    | .ok template =>
      (Instruction.ofNodes template.nodes).foldlM (fun disk instruction =>
        match instruction with
        | .partialCall name =>
          addTemplates root extension (path :: seen) disk
            (TemplateSource.filePath root extension name)
        | _ => return disk) disk

/-- A disk with all that a command may look at. -/
def forCommand (disk : Disk) : CommandLine.Command → IO Disk
  | .render options => do
    let root := options.root.getD ((Path.parent? options.template).getD "")
    let extension := options.extension.getD TemplateSource.defaultExtension
    let disk ← match TemplateSource.ofRoot root extension with
      | .files root extension => addTemplates root extension [] disk options.template
      | .memory _ => pure disk
    let disk ← (options.context.toList ++ options.output.toList).foldlM add disk
    let directories :=
      options.debugDirectory.toList ++ options.artifacts.toList.map Artifact.directory
    directories.foldlM addDirectory disk
  | .dump options => add disk options.template
  | .warm options => do
    let disk ← options.templates.foldlM add disk
    addDirectory disk (Artifact.directory options.artifacts)

/-- Writes a file. One that holds a program is written under another name first. -/
def write (location : List String) (content : ByteArray) : IO Unit := do
  let path := absolute location
  IO.FS.createDirAll (absolute location.dropLast)
  match location.getLast?.bind Artifact.digitsOfName? with
  | some _ => do
    IO.FS.writeBinFile (path ++ ".tmp") content
    IO.FS.rename (path ++ ".tmp") path
  | none => IO.FS.writeBinFile path content

/-- Writes the files in which two disks differ. -/
def writeChanges (before after : Disk) : IO Unit := do
  let old := before.filesBelow []
  for (location, content) in after.filesBelow [] do
    let unchanged := old.any fun (known, oldContent) =>
      known == location && oldContent.data == content.data
    unless unchanged do write location content

end Snapshot

end Mustache

open Mustache in
/-- Runs the program. -/
def main (arguments : List String) : IO UInt32 := do
  let artifacts ← IO.getEnv "STACHE_ARTIFACTS"
  let seconds := (← Std.Time.Timestamp.now).toSecondsSinceUnixEpoch.val.toNat
  let place := Path.names (← IO.currentDir).toString
  let bare := (List.range place.length).foldl
    (fun root count => root.insert (place.take (count + 1)) (.directory [])) (Entry.directory [])
  let disk : Disk := ⟨bare, place, none⟩
  let disk ← match CommandLine.Command.parse artifacts arguments with
    | .ok command => Snapshot.forCommand disk command
    | .error _ => pure disk
  let (status, console) :=
    (CommandLine.run (.ofSeconds seconds) artifacts arguments).run { disk := disk }
  Snapshot.writeChanges disk console.disk
  (← IO.getStdout).write console.output
  (← IO.getStderr).putStr console.errors
  return UInt32.ofNat status
