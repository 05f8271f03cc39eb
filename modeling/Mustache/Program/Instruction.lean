import Mustache.Template.Node
import Mustache.Text.Quoted

/-!
# Instructions

The steps of a render program. A block is an opening instruction, its content, and a closing
instruction. `Instruction.ofNodes` lowers a tree of nodes to such a sequence; in the result no
literal is empty and no two literals are neighbours. `Instruction.lowered` is the text form
whose hash identifies a program.
-/

namespace Mustache

/-- One step of a render program. -/
inductive Instruction where
  /-- Write a text. -/
  | literal (text : String)
  /-- Write the value that a path names, escaped or as it is. -/
  | interpolation (path : String) (escaped : Bool)
  /-- Start a block over what a path names. -/
  | openBlock (kind : BlockKind) (path : String)
  /-- End the innermost open block. -/
  | closeBlock
  /-- Run another template. -/
  | partialCall (name : String)
  deriving Repr, DecidableEq, Inhabited

namespace Instruction

/-- The text form of an instruction, its argument quoted. -/
def text : Instruction → String
  | .literal text => "literal " ++ Text.quoted text
  | .interpolation path true => "variable " ++ Text.quoted path
  | .interpolation path false => "raw " ++ Text.quoted path
  | .openBlock .iterable path => "section " ++ Text.quoted path
  | .openBlock .inverted path => "inverted " ++ Text.quoted path
  | .closeBlock => "end"
  | .partialCall name => "partial " ++ Text.quoted name

/-- The depth at which an instruction is written when `depth` blocks are open before it. -/
def depthAt (depth : Nat) : Instruction → Nat
  | .closeBlock => depth - 1
  | _ => depth

/-- The number of blocks that are open after an instruction. -/
def depthAfter (depth : Nat) : Instruction → Nat
  | .closeBlock => depth - 1
  | .openBlock _ _ => depth + 1
  | _ => depth

/-- The line of an instruction, two spaces in for each open block. -/
def line (depth : Nat) (instruction : Instruction) : String :=
  String.ofList (List.replicate (2 * instruction.depthAt depth) ' ') ++ instruction.text ++ "\n"

/-- The lines of instructions before which `depth` blocks are open. -/
def lines (depth : Nat) : List Instruction → List String
  | [] => []
  | instruction :: rest => instruction.line depth :: lines (instruction.depthAfter depth) rest

/-- The text form of a sequence of instructions. -/
def lowered (instructions : List Instruction) : String :=
  String.join (lines 0 instructions)

/-- Literal text in front of instructions; empty text adds nothing, other text joins the
literal that follows. -/
def consLiteral (content : String) (instructions : List Instruction) : List Instruction :=
  if content.isEmpty then instructions
  else
    match instructions with
    | .literal following :: rest => .literal (content ++ following) :: rest
    | _ => .literal content :: instructions

mutual

/-- What a node does, in front of what follows it. -/
def consNode (node : Node) (following : List Instruction) : List Instruction :=
  match node with
  | .text content => consLiteral content following
  | .interpolation path escaped _ => .interpolation path escaped :: following
  | .block kind name children _ _ =>
    .openBlock kind name :: (ofNodes children ++ .closeBlock :: following)
  | .partialCall name _ => .partialCall name :: following
  | .comment _ _ => following

/-- What a sequence of nodes does. -/
def ofNodes : List Node → List Instruction
  | [] => []
  | node :: rest => consNode node (ofNodes rest)

end

end Instruction

end Mustache
