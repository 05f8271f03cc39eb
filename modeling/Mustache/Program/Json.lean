import Mustache.Json.Fields
import Mustache.Json.Printer
import Mustache.Program.Instruction

/-!
# Instructions as documents

An instruction is an object with the name of its operation and, but for the end of a block, an
argument. A reader takes the two members in either order, or the two values in a list; other
members are passed by.
-/

namespace Mustache.Instruction

open Json

/-- The name of an instruction's operation. -/
def operation : Instruction → String
  | .literal _ => "emit_literal"
  | .interpolation _ _ => "emit_variable"
  | .openBlock .iterable _ => "begin_iterable"
  | .openBlock .inverted _ => "begin_inverted"
  | .closeBlock => "end"
  | .partialCall _ => "invoke_partial"

/-- The argument of an instruction. -/
def argument? : Instruction → Option Document
  | .literal text => some (.string text)
  | .interpolation path escaped =>
    some (.object [("path", .string path), ("escape", .bool escaped)])
  | .openBlock _ path => some (.string path)
  | .closeBlock => none
  | .partialCall name => some (.string name)

/-- An instruction as a document. -/
def document (instruction : Instruction) : Document :=
  match instruction.argument? with
  | some argument => .object [("op", .string instruction.operation), ("arg", argument)]
  | none => .object [("op", .string instruction.operation)]

/-- A sequence of instructions as a document. -/
def documents (instructions : List Instruction) : Document :=
  .array (instructions.map document)

/-- What an interpolation's argument says. -/
def interpolationOf? : Tree → Option Instruction
  | .object members => do
    let fields ← Fields.ofMembers? members
    let path ← (← fields.required? "path").text?
    match ← fields.required? "escape" with
    | .bool escaped => return .interpolation path escaped
    | _ => none
  | _ => none

/-- The instruction with an operation and an argument. -/
def ofParts? (operation : String) (argument : Option Tree) : Option Instruction :=
  match argument with
  | none => if operation == "end" then some .closeBlock else none
  | some argument =>
    if operation == "emit_literal" then argument.text?.map .literal
    else if operation == "emit_variable" then interpolationOf? argument
    else if operation == "begin_iterable" then argument.text?.map (.openBlock .iterable)
    else if operation == "begin_inverted" then argument.text?.map (.openBlock .inverted)
    else if operation == "invoke_partial" then argument.text?.map .partialCall
    else if operation == "end" then
      match argument with
      | .null => some .closeBlock
      | _ => none
    else none

/-- The name of an operation, as a string or as the only member of an object that holds
nothing else. -/
def operationOf? : Tree → Option String
  | .string name => name
  | .object [(name, .null)] => name
  | _ => none

/-- The instruction that a tree stands for, if its values are nested at most `depth` deep. An
argument before the operation has to be kept until the operation is known, and so has to be a
document. In a list the operation is a string. -/
def ofTree? (depth : Nat) : Tree → Option Instruction
  | .object members => do
    let fields ← Fields.ofMembers? members
    let operation ← operationOf? (← fields.required? "op")
    let argument ← fields.optional? "arg"
    if fields.startsWith "arg" "op" then
      let _ ← argument.bind (Document.ofTree? (depth - 1))
    ofParts? operation argument
  | .array [operation, argument] => do
    ofParts? (← operation.text?) (some argument)
  | _ => none

/-- The instructions that a tree stands for, if its values are nested at most `depth` deep. -/
def listOfTree? (depth : Nat) : Tree → Option (List Instruction)
  | .array items => items.mapM (ofTree? (depth - 1))
  | _ => none

/-- The instructions that a text spells. -/
def parseList? (source : String) : Option (List Instruction) :=
  (Tree.parse? source).bind (listOfTree? Document.maxDepth)

end Mustache.Instruction
