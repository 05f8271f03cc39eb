import Mustache.Program.Basic
import Mustache.Storage.FileError

/-!
# Compile errors

Why a template does not become a program, and what led to it. An error that wraps another one
says the other's message within its own and lists it once more among its causes.
-/

namespace Mustache

/-- Why a template does not become a program. -/
inductive CompileError where
  /-- The tags do not fit together. -/
  | malformed (error : StructuralError)
  /-- A template file cannot be read. -/
  | unreadableFile (path : String) (cause : FileError)
  /-- The bytes of a template cannot be read. -/
  | unreadable (cause : FileError)
  /-- The blocks of a sequence of instructions do not fit together. -/
  | unbalanced (error : BlockError)
  /-- A block is entered whose end is not known. -/
  | endless (index : Nat)
  /-- A text may not serve as a marker. -/
  | invalidMarker (marker : String)
  /-- A text is no content hash. -/
  | invalidHash (digits : String) (reason : HashTextError)
  /-- A program that was built has been turned down. -/
  | rejected (reason : String)
  /-- The text form of a program cannot be written down. -/
  | undumped (path : String) (cause : FileError)
  deriving Repr, DecidableEq, Inhabited

namespace CompileError

/-- What is said about a compile error. -/
def message : CompileError → String
  | .malformed error => "template structure error: " ++ error.message
  | .unreadableFile path cause => s!"template io error at {path}: " ++ cause.message
  | .unreadable cause => "failed to read template: " ++ cause.message
  | .unbalanced error => "failed to compile template: " ++ error.message
  | .endless index =>
    s!"failed to compile template: instruction {index} opens a block with no end"
  | .invalidMarker marker =>
    "failed to compile template: invalid delimiter " ++ Text.quoted marker ++
      ": markers must be non-empty and contain no whitespace"
  | .invalidHash digits reason =>
    "failed to compile template: invalid content hash " ++ Text.quoted digits ++ ": " ++
      reason.message
  | .rejected reason => "failed to compile template: " ++ reason
  | .undumped path cause => s!"failed to write debug dump at {path}: " ++ cause.message

/-- What lies behind a compile error. -/
def causes : CompileError → List String
  | .malformed error => [error.message]
  | .unreadableFile _ cause | .unreadable cause | .undumped _ cause => [cause.message]
  | _ => []

end CompileError

/-- A pair of markers. -/
def Delimiters.ofMarkers (opening closing : String) : Except CompileError Delimiters :=
  (Delimiters.make opening closing).mapError .invalidMarker

/-- The content hash that a text spells. -/
def ContentHash.parse (digits : String) : Except CompileError ContentHash :=
  (ContentHash.ofHex digits).mapError (.invalidHash digits)

/-- The program of a sequence of instructions. -/
def Program.make (instructions : List Instruction) : Except CompileError Program :=
  (Program.ofInstructions instructions).mapError .unbalanced

end Mustache
