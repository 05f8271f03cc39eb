import Mustache.Compile.Error
import Mustache.Host.Basic

/-!
# Render errors

Why a template is not rendered to its end, and what led to it.
-/

namespace Mustache

/-- Why a template is not rendered to its end. -/
inductive RenderError where
  /-- A template does not compile. -/
  | uncompiled (error : CompileError)
  /-- The output does not fit the sink. -/
  | sinkFull
  /-- No template has the name. -/
  | templateNotFound (name path : String)
  /-- Templates call each other too deep. -/
  | tooDeep (name : String) (depth : Nat)
  /-- A template file cannot be read. -/
  | unreadable (path : String) (cause : FileError)
  /-- The output is no text. -/
  | notText
  /-- A value never comes. -/
  | stalled (stall : Stall)
  deriving Repr, DecidableEq, Inhabited

namespace RenderError

/-- What is said about a sink that is full. -/
def sinkFullCause : String := "disk full"

/-- What is said about a render error. -/
def message : RenderError → String
  | .uncompiled error => error.message
  | .sinkFull => "failed to write render output: " ++ sinkFullCause
  | .templateNotFound name path => s!"template '{name}' not found at {path}"
  | .tooDeep name depth => s!"partial '{name}' nested {depth} levels deep; recursive partial?"
  | .unreadable path cause => s!"template io error at {path}: " ++ cause.message
  | .notText => "rendered output is not valid utf-8"
  | .stalled stall => "rendering never ends: " ++ stall.message

/-- What lies behind a render error. -/
def causes : RenderError → List String
  | .uncompiled error => error.causes
  | .sinkFull => [sinkFullCause]
  | .unreadable _ cause => [cause.message]
  | _ => []

end RenderError

end Mustache
