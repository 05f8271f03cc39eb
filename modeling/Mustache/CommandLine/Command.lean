import Mustache.CommandLine.Arguments
import Mustache.Text.Blank
import Mustache.Text.Search

/-!
# Commands

What the program can be asked to do: render a template file, show the program of one, or store
the programs of several. `Command.parse` reads a command from the arguments.
-/

namespace Mustache.CommandLine

/-- How a template file is rendered. -/
structure RenderOptions where
  /-- The template file. -/
  template : String
  /-- Where other templates are found, if not beside the template. -/
  root : Option String
  /-- The file with the data. -/
  context : Option String
  /-- Names that are bound to texts. -/
  bindings : List (String × String)
  /-- The extension of template names that have none. -/
  extension : Option String
  /-- Where the text forms of programs are written. -/
  debugDirectory : Option String
  /-- The file for the output, if it is not for the standard output. -/
  output : Option String
  /-- Where programs are stored. -/
  artifacts : Option String
  deriving Repr, DecidableEq, Inhabited

/-- How the program of a template file is shown. -/
structure DumpOptions where
  /-- The template file. -/
  template : String
  /-- The two markers with a space between them. -/
  delimiters : Option String
  /-- Whether the instructions are shown as a document. -/
  asDocument : Bool
  deriving Repr, DecidableEq, Inhabited

/-- Which programs are stored where. -/
structure WarmOptions where
  /-- Where programs are stored. -/
  artifacts : String
  /-- The template files. -/
  templates : List String
  deriving Repr, DecidableEq, Inhabited

/-- What the program can be asked to do. -/
inductive Command where
  /-- To render a template file. -/
  | render (options : RenderOptions)
  /-- To show the program of a template file. -/
  | dump (options : DumpOptions)
  /-- To store the programs of template files. -/
  | warm (options : WarmOptions)
  deriving Repr, DecidableEq, Inhabited

/-- A text before and after the first occurrence of a character. -/
def splitOnce? (mark : Char) (text : String) : Option (String × String) :=
  (Text.splitAtMarker? [mark] text.toList).map fun (before, after) =>
    (String.ofList before, String.ofList after)

/-- A text without the white space around it. -/
def trimmed (text : String) : String :=
  String.ofList (Text.trim text.toList)

/-- The name and the text of a binding: they stand before and after the first equals sign, and
the name is not blank. -/
def binding? (argument : String) : Option (String × String) :=
  match splitOnce? '=' argument with
  | none => none
  | some (name, value) => if (trimmed name).isEmpty then none else some (trimmed name, value)

namespace Command

/-- The option that asks for help. -/
def helpForm : OptionForm := ⟨"help", some 'h', .stop .help⟩

/-- An option for a path. -/
def pathForm (name : String) (letter : Option Char) : OptionForm :=
  ⟨name, letter, .value (fun value => ! value.isEmpty) false⟩

/-- An option for a text. -/
def textForm (name : String) : OptionForm :=
  ⟨name, none, .value (fun _ => true) false⟩

/-- The options of all commands together. -/
def commonForms : List OptionForm := [helpForm, ⟨"version", some 'V', .stop .version⟩]

/-- The options for rendering. -/
def renderForms : List OptionForm := [
  helpForm, pathForm "root" none, pathForm "context" (some 'c'),
  ⟨"set", none, .value (fun value => (binding? value).isSome) true⟩,
  textForm "extension", pathForm "debug-dir" none, pathForm "output" (some 'o'),
  pathForm "artifacts" none, ⟨"debug", none, .flag⟩]

/-- The options for showing a program. -/
def dumpForms : List OptionForm := [helpForm, textForm "delimiters", ⟨"json", none, .flag⟩]

/-- Where programs are stored by a rendering: as the option says, and otherwise as the
environment says, which must not be an empty path then. -/
def artifactsOf (given environment : Option String) : Except Stop (Option String) :=
  match given, environment with
  | some path, _ => .ok (some path)
  | none, some path => if path.isEmpty then .error .misuse else .ok (some path)
  | none, none => .ok none

/-- The command to render that arguments stand for. -/
def parseRender (environment : Option String) (arguments : List String) :
    Except Stop Command := do
  let collected ← collect renderForms (some 1) arguments
  match collected.positionals with
  | [template] =>
    return .render {
      template := template
      root := collected.value? "root"
      context := collected.value? "context"
      bindings := (collected.values "set").filterMap binding?
      extension := collected.value? "extension"
      debugDirectory := collected.value? "debug-dir"
      output := collected.value? "output"
      artifacts := ← artifactsOf (collected.value? "artifacts") environment }
  | _ => throw .misuse

/-- The command to show a program that arguments stand for. -/
def parseDump (arguments : List String) : Except Stop Command := do
  let collected ← collect dumpForms (some 1) arguments
  match collected.positionals with
  | [template] =>
    return .dump ⟨template, collected.value? "delimiters", collected.hasFlag "json"⟩
  | _ => throw .misuse

/-- The command to store programs that arguments stand for. -/
def parseWarm (arguments : List String) : Except Stop Command := do
  let collected ← collect [helpForm] none arguments
  match collected.positionals with
  | artifacts :: template :: templates => return .warm ⟨artifacts, template :: templates⟩
  | _ => throw .misuse

/-- The command that arguments stand for. The environment may name the directory where programs
are stored. -/
def parse (environment : Option String) : List String → Except Stop Command
  | [] => .error .misuse
  | first :: rest =>
    match readFrom commonForms none [first] with
    | .stop stop :: _ => .error stop
    | _ =>
      if first == "render" then parseRender environment rest
      else if first == "dump" then parseDump rest
      else if first == "warm" then parseWarm rest
      else if first == "help" then
        match rest with
        | [] => .error .help
        | [name] =>
          .error (if ["render", "dump", "warm", "help"].contains name then .help else .misuse)
        | _ => .error .misuse
      else .error .misuse

end Command

end Mustache.CommandLine
