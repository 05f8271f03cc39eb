import Mustache.Template.Tag
import Mustache.Template.Token

/-!
# Standalone lines

A line that holds nothing but blanks and tags that open or close blocks is there for the
reader of the template. When one of those tags has its partner on another line, the line
stands alone: its blanks and its line end are left out, its tags stay.
-/

namespace Mustache

/-- A token whose tag has been understood. -/
inductive Item where
  /-- Literal text within one line. -/
  | text (content : String)
  /-- The end of a line. -/
  | newline
  /-- A tag and the line on which it starts. -/
  | tag (meaning : Tag) (line : Nat)
  deriving Repr, DecidableEq, Inhabited

namespace Item

/-- A token with its tag understood. -/
def ofToken : Token → Item
  | .text content => .text content
  | .newline => .newline
  | .tag body line => .tag (Tag.ofBody body) line

/-- Whether an item is a tag. -/
def isTag : Item → Bool
  | .tag _ _ => true
  | _ => false

/-- Whether an item may stand on a line that stands alone. -/
def fitsStandalone : Item → Bool
  | .newline => true
  | .text content => content.toList.all Text.isLineBlank
  | .tag meaning _ => meaning.isControl

end Item

namespace Layout

/-- The positions of the tags whose partner is on another line. Opening and closing tags are
paired innermost first, whatever their names; `openTags` holds the position and the line of
the tags that are still open, and `position` is that of the first item. -/
def spanningFrom (position : Nat) (openTags : List (Nat × Nat)) : List Item → List Nat
  | [] => []
  | .tag (.openBlock _ _) line :: rest =>
    spanningFrom (position + 1) ((position, line) :: openTags) rest
  | .tag (.closeBlock _) line :: rest =>
    match openTags with
    | [] => spanningFrom (position + 1) [] rest
    | (start, startLine) :: enclosing =>
      if startLine ≠ line then
        start :: position :: spanningFrom (position + 1) enclosing rest
      else spanningFrom (position + 1) enclosing rest
  | _ :: rest => spanningFrom (position + 1) openTags rest

/-- The positions of the tags whose partner is on another line. -/
def spanning (items : List Item) : List Nat :=
  spanningFrom 0 [] items

/-- A sequence cut after each line end. -/
def splitLines : List (Item × Nat) → List (List (Item × Nat))
  | [] => []
  | (.newline, position) :: rest => [(.newline, position)] :: splitLines rest
  | head :: rest =>
    match splitLines rest with
    | [] => [[head]]
    | line :: following => (head :: line) :: following

/-- Whether a line stands alone: only blanks and control tags, one of them spanning lines. -/
def isStandalone (anchors : List Nat) (line : List (Item × Nat)) : Bool :=
  line.all (fun (item, _) => item.fitsStandalone) &&
    line.any (fun (item, position) => item.isTag && anchors.contains position)

/-- What is left of a line: its tags when it stands alone, all of it otherwise. -/
def keepLine (anchors : List Nat) (line : List (Item × Nat)) : List Item :=
  let items := line.map (·.1)
  if isStandalone anchors line then items.filter Item.isTag else items

/-- A sequence of items without the blanks and line ends of its standalone lines. -/
def elide (items : List Item) : List Item :=
  (splitLines items.zipIdx).flatMap (keepLine (spanning items))

end Layout

end Mustache
