import Mustache.Template.Layout

/-!
# Nodes

A template as a tree: blocks hold the nodes between their opening and their closing tag.
`Template.ofTokens` reads the tree from the tokens of a template by recursive descent; a block
ends at the first closing tag that no inner block took, which must carry the block's name.
-/

namespace Mustache

/-- An element of a template. -/
inductive Node where
  /-- Literal text. -/
  | text (content : String)
  /-- The place of a value, as it is or escaped. -/
  | interpolation (path : String) (escaped : Bool) (line : Nat)
  /-- A block with its content, from the line of its opening to that of its closing tag. -/
  | block (kind : BlockKind) (name : String) (children : List Node) (firstLine lastLine : Nat)
  /-- The place of another template. -/
  | partialCall (name : String) (line : Nat)
  /-- A remark. -/
  | comment (text : String) (line : Nat)
  deriving Repr, Inhabited

/-- A finding that does not keep a template from being used. -/
inductive Warning where
  /-- A directive that is not understood. -/
  | unsupportedPragma (pragma : String) (line : Nat)
  deriving Repr, DecidableEq, Inhabited

/-- What is said about a warning. -/
def Warning.message : Warning → String
  | .unsupportedPragma pragma line => s!"pragma '{pragma}' at line {line} is unsupported"

namespace Node

/-- Literal text in front of nodes; it joins the text that follows. -/
def consText (content : String) : List Node → List Node
  | .text following :: rest => .text (content ++ following) :: rest
  | nodes => .text content :: nodes

end Node

/-- A template that has been read. -/
structure Template where
  /-- The elements of the template. -/
  nodes : List Node
  /-- The findings, in the order of the tags that gave rise to them. -/
  warnings : List Warning
  deriving Repr, Inhabited

namespace Template

/-- The items of a block that have been read, and those after its closing tag. -/
structure Reading (items : List Item) where
  /-- What has been read. -/
  content : Template
  /-- The line of the closing tag. -/
  closingLine : Nat
  /-- The items after the closing tag. -/
  rest : List Item
  /-- Reading goes forward. -/
  rest_le : rest.length ≤ items.length

namespace Reading

/-- A reading with more nodes in front. -/
def mapNodes {items longer : List Item} (reading : Reading items)
    (extend : List Node → List Node) (le : items.length ≤ longer.length) : Reading longer where
  content := { reading.content with nodes := extend reading.content.nodes }
  closingLine := reading.closingLine
  rest := reading.rest
  rest_le := Nat.le_trans reading.rest_le le

end Reading

/-- The content of the block `enclosing`, or of the whole template when there is none: the
items up to the closing tag that ends it. -/
def readBlock (enclosing : Option (String × Nat)) (items : List Item) :
    Except StructuralError (Reading items) :=
  match items with
  | [] =>
    match enclosing with
    | some (name, line) => .error (.unclosed name line)
    | none => .ok ⟨⟨[], []⟩, 0, [], Nat.le_refl _⟩
  | .text content :: following =>
    match readBlock enclosing following with
    | .error error => .error error
    | .ok reading => .ok (reading.mapNodes (Node.consText content) (Nat.le_succ _))
  | .newline :: following =>
    match readBlock enclosing following with
    | .error error => .error error
    | .ok reading => .ok (reading.mapNodes (Node.consText "\n") (Nat.le_succ _))
  | .tag (.openBlock kind name) line :: following =>
    match readBlock (some (name, line)) following with
    | .error error => .error error
    | .ok inner =>
      match readBlock enclosing inner.rest with
      | .error error => .error error
      | .ok outer =>
        .ok {
          content := {
            nodes := .block kind name inner.content.nodes line inner.closingLine ::
              outer.content.nodes
            warnings := inner.content.warnings ++ outer.content.warnings }
          closingLine := outer.closingLine
          rest := outer.rest
          rest_le := Nat.le_trans (Nat.le_trans outer.rest_le inner.rest_le) (Nat.le_succ _) }
  | .tag (.closeBlock found) line :: following =>
    match enclosing with
    | none => .error (.unexpectedClose found line)
    | some (expected, _) =>
      if expected = found then .ok ⟨⟨[], []⟩, line, following, Nat.le_succ _⟩
      else .error (.mismatched expected found line)
  | .tag (.partialCall name) line :: following =>
    match readBlock enclosing following with
    | .error error => .error error
    | .ok reading => .ok (reading.mapNodes (.partialCall name line :: ·) (Nat.le_succ _))
  | .tag (.interpolation path escaped) line :: following =>
    match readBlock enclosing following with
    | .error error => .error error
    | .ok reading =>
      .ok (reading.mapNodes (.interpolation path escaped line :: ·) (Nat.le_succ _))
  | .tag (.comment text) line :: following =>
    match readBlock enclosing following with
    | .error error => .error error
    | .ok reading => .ok (reading.mapNodes (.comment text line :: ·) (Nat.le_succ _))
  | .tag (.pragma text) line :: following =>
    match readBlock enclosing following with
    | .error error => .error error
    | .ok reading =>
      .ok {
        content := {
          nodes := reading.content.nodes
          warnings := .unsupportedPragma text line :: reading.content.warnings }
        closingLine := reading.closingLine
        rest := reading.rest
        rest_le := Nat.le_trans reading.rest_le (Nat.le_succ _) }
  | .tag .empty line :: _ => .error (.emptyTag line)
  termination_by items.length
  decreasing_by
    all_goals first
      | (simp only [List.length_cons]; omega)
      | (have shorter := inner.rest_le; simp only [List.length_cons]; omega)

/-- The template that a sequence of tokens spells. -/
def ofTokens (tokens : List Token) : Except StructuralError Template :=
  (readBlock none (Layout.elide (tokens.map Item.ofToken))).map (·.content)

/-- The template that a text spells. -/
def parse (delimiters : Delimiters) (source : String) : Except StructuralError Template := do
  ofTokens (← Token.scan delimiters source)

end Template

end Mustache
