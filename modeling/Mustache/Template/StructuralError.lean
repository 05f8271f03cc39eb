/-!
# Structural errors

The ways in which the tags of a template can fail to fit together. Each names the line of the
tag at fault, counted from one.
-/

namespace Mustache

/-- A fault in the structure of a template's tags. -/
inductive StructuralError where
  /-- A closing tag names another block than the innermost open one. -/
  | mismatched (expected found : String) (line : Nat)
  /-- A closing tag stands where no block is open. -/
  | unexpectedClose (found : String) (line : Nat)
  /-- The template ends while a block is open. -/
  | unclosed (name : String) (line : Nat)
  /-- An opening marker has no closing marker after it. -/
  | unterminated (line : Nat)
  /-- A tag that starts with a brace lacks the brace after its closing marker. -/
  | unterminatedUnescaped (line : Nat)
  /-- A tag holds nothing but white space. -/
  | emptyTag (line : Nat)
  deriving Repr, DecidableEq, Inhabited

/-- The line of the tag at fault. -/
def StructuralError.line : StructuralError → Nat
  | .mismatched _ _ line | .unexpectedClose _ line | .unclosed _ line
  | .unterminated line | .unterminatedUnescaped line | .emptyTag line => line

/-- What is said about a structural error. -/
def StructuralError.message : StructuralError → String
  | .mismatched expected found line =>
    s!"mismatched start/end tags: {expected} != {found} at line {line}"
  | .unexpectedClose found line =>
    s!"closing tag '{found}' at line {line} has no matching start tag"
  | .unclosed name line => s!"section '{name}' opened at line {line} is never closed"
  | .unterminated line => s!"unterminated tag opened at line {line}"
  | .unterminatedUnescaped line => s!"unescaped tag not terminated properly at line {line}"
  | .emptyTag line => s!"empty tag at line {line}"

end Mustache
