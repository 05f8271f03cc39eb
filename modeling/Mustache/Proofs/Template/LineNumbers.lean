import Mustache.Proofs.Template.Flattening
import Mustache.Proofs.Template.PlacedTags

/-!
# Line numbers from the source to the tree

Every line that a template names is that of a tag where it stands in the source: the lines of its
nodes, of both ends of its blocks, of its warnings and of its faults. The tags of the tree written
out are those of the source, so a block spans the lines from its own opening tag to its own closing
tag; and since lines grow from tag to tag, what is in a block lies within its lines.
-/

namespace Mustache

namespace PlacedTag

/-- Whether a tag is a directive. -/
def isPragma (tag : PlacedTag) : Bool :=
  tag.meaning.isPragma

/-- The warning that a tag gives rise to. -/
def warning? (tag : PlacedTag) : Option Warning :=
  tag.meaning.warning? tag.line

end PlacedTag

namespace Node

mutual

/-- A node lies within lines: its line does, or its lines do and its content lies within them. -/
def Within (first last : Nat) : Node → Prop
  | .text _ => True
  | .interpolation _ _ line | .partialCall _ line | .comment _ line => first ≤ line ∧ line ≤ last
  | .block _ _ children firstLine lastLine =>
    first ≤ firstLine ∧ firstLine ≤ lastLine ∧ lastLine ≤ last ∧
      AllWithin firstLine lastLine children

/-- Nodes lie within lines. -/
def AllWithin (first last : Nat) : List Node → Prop
  | [] => True
  | node :: rest => Within first last node ∧ AllWithin first last rest

end

/-- The lines of the tags of items. -/
def tagLines (items : List Item) : List Nat :=
  (items.filterMap Item.tag?).map (·.2)

theorem tagLines_append (first second : List Item) :
    tagLines (first ++ second) = tagLines first ++ tagLines second := by
  simp [tagLines]

/-- Lines that grow from one line to another. -/
structure Growing (first last : Nat) (lines : List Nat) : Prop where
  /-- No line is before an earlier one. -/
  sorted : lines.Pairwise (· ≤ ·)
  /-- All lines are between the two. -/
  bounded : ∀ line ∈ lines, first ≤ line ∧ line ≤ last

namespace Growing

variable {first last : Nat}

/-- Lines that grow do so part by part. -/
theorem parts {earlier later : List Nat} (growing : Growing first last (earlier ++ later)) :
    Growing first last earlier ∧ Growing first last later := by
  obtain ⟨sortedEarlier, sortedLater, _⟩ := List.pairwise_append.1 growing.sorted
  exact ⟨⟨sortedEarlier, fun line member => growing.bounded line (List.mem_append_left _ member)⟩,
    ⟨sortedLater, fun line member => growing.bounded line (List.mem_append_right _ member)⟩⟩

/-- What is between two lines of `Growing` ones grows from the one to the other. -/
theorem between {start stop : Nat} {lines : List Nat}
    (growing : Growing first last (start :: (lines ++ [stop]))) :
    first ≤ start ∧ start ≤ stop ∧ stop ≤ last ∧ Growing start stop lines := by
  obtain ⟨afterStart, sorted⟩ := List.pairwise_cons.1 growing.sorted
  obtain ⟨sortedLines, _, beforeStop⟩ := List.pairwise_append.1 sorted
  have stopLast : stop ∈ lines ++ [stop] := List.mem_append_right _ (List.mem_singleton.2 rfl)
  refine ⟨(growing.bounded start List.mem_cons_self).1, afterStart stop stopLast,
    (growing.bounded stop (List.mem_cons_of_mem _ stopLast)).2, sortedLines, ?_⟩
  intro line member
  exact ⟨afterStart line (List.mem_append_left _ member),
    beforeStop line member stop (List.mem_singleton.2 rfl)⟩

end Growing

mutual

theorem within_of_growing (node : Node) {first last : Nat}
    (growing : Growing first last (tagLines node.items)) : Within first last node := by
  cases node with
  | text => trivial
  | interpolation path escaped line => exact growing.bounded line List.mem_cons_self
  | partialCall name line => exact growing.bounded line List.mem_cons_self
  | comment remark line => exact growing.bounded line List.mem_cons_self
  | block kind name children firstLine lastLine =>
    have written : tagLines (block kind name children firstLine lastLine).items =
        firstLine :: (tagLines (itemsOf children) ++ [lastLine]) := by
      simp [items, tagLines, Item.tag?]
    rw [written] at growing
    obtain ⟨starts, ordered, stops, inside⟩ := growing.between
    exact ⟨starts, ordered, stops, allWithin_of_growing children inside⟩

/-- Nodes whose tags, written out by `itemsOf`, have `Growing` lines lie within these. -/
theorem allWithin_of_growing (nodes : List Node) {first last : Nat}
    (growing : Growing first last (tagLines (itemsOf nodes))) : AllWithin first last nodes := by
  cases nodes with
  | nil => trivial
  | cons node rest =>
    rw [itemsOf, tagLines_append] at growing
    exact ⟨within_of_growing node growing.parts.1, allWithin_of_growing rest growing.parts.2⟩

end

end Node

namespace OpenTags

/-- To fail, `OpenTags.run` comes to a tag that cannot follow what is open, or to the end with a
block open. -/
theorem run_eq_error {openTags : OpenTags} {tags : List (Tag × Nat)} {fault : StructuralError}
    (failed : run openTags tags = .error fault) :
    (∃ before tag after reached, tags = before ++ tag :: after ∧
      before.foldlM step openTags = .ok reached ∧ step reached tag = .error fault) ∨
    ∃ name line enclosing, tags.foldlM step openTags = .ok ((name, line) :: enclosing) ∧
      fault = .unclosed name line := by
  induction tags generalizing openTags with
  | nil =>
    cases openTags with
    | nil => cases failed
    | cons innermost enclosing =>
      cases failed
      exact Or.inr ⟨_, _, _, rfl, rfl⟩
  | cons tag rest inductionHypothesis =>
    rw [run_cons] at failed
    cases stepped : step openTags tag with
    | error found =>
      rw [stepped] at failed
      cases failed
      exact Or.inl ⟨[], tag, rest, openTags, rfl, rfl, stepped⟩
    | ok next =>
      rw [stepped] at failed
      have onward : ∀ tags, (tag :: tags).foldlM step openTags = tags.foldlM step next := by
        intro tags
        rw [List.foldlM_cons, stepped]
        rfl
      rcases inductionHypothesis failed with
        ⟨before, faulty, after, reached, split, passed, fails⟩ | ⟨name, line, enclosing, passed, same⟩
      · refine Or.inl ⟨tag :: before, faulty, after, reached, ?_, ?_, fails⟩
        · rw [split, List.cons_append]
        · rw [onward, passed]
      · exact Or.inr ⟨name, line, enclosing, (onward rest).trans passed, same⟩

/-- A block that is open after tags was open before them or was opened by one of them; all that was
opened since has been closed. -/
theorem exists_opening {openTags enclosing : OpenTags} {tags : List (Tag × Nat)}
    {innermost : String × Nat}
    (passed : tags.foldlM step openTags = .ok (innermost :: enclosing)) :
    (∃ since, openTags = since ++ innermost :: enclosing ∧ tags.foldlM step since = .ok []) ∨
    ∃ before kind after reached,
      tags = before ++ (.openBlock kind innermost.1, innermost.2) :: after ∧
      before.foldlM step openTags = .ok reached ∧ after.foldlM step [] = .ok [] := by
  induction tags generalizing openTags with
  | nil =>
    cases passed
    exact Or.inl ⟨[], rfl, rfl⟩
  | cons tag rest inductionHypothesis =>
    rw [List.foldlM_cons] at passed
    cases stepped : step openTags tag with
    | error =>
      rw [stepped] at passed
      cases passed
    | ok next =>
      rw [stepped] at passed
      have onward : ∀ {start reached}, step start tag = .ok reached →
          ∀ tags, (tag :: tags).foldlM step start = tags.foldlM step reached := by
        intro start reached known tags
        rw [List.foldlM_cons, known]
        rfl
      rcases inductionHypothesis passed with ⟨since, rfl, closed⟩ |
        ⟨before, kind, after, reached, rfl, entered, closed⟩
      · obtain ⟨meaning, line⟩ := tag
        cases meaning with
        | openBlock kind name =>
          cases since with
          | nil =>
            cases stepped
            exact Or.inr ⟨[], kind, rest, enclosing, rfl, rfl, closed⟩
          | cons opened since =>
            cases stepped
            exact Or.inl ⟨since, rfl, (onward rfl rest).trans closed⟩
        | closeBlock found =>
          cases openTags with
          | nil => cases stepped
          | cons opened outer =>
            obtain ⟨expected, openedAt⟩ := opened
            rw [step] at stepped
            split at stepped
            · next same =>
              cases stepped
              have closes : step ((expected, openedAt) :: since) (.closeBlock found, line) =
                  .ok since := if_pos same
              exact Or.inl ⟨(expected, openedAt) :: since, rfl, (onward closes rest).trans closed⟩
            · cases stepped
        | empty => cases stepped
        | partialCall | interpolation | comment | pragma =>
          cases stepped
          exact Or.inl ⟨since, rfl, (onward rfl rest).trans closed⟩
      · exact Or.inr ⟨tag :: before, kind, after, reached, rfl,
          (onward stepped before).trans entered, closed⟩

/-- A tag that cannot follow what is open is reported by `OpenTags.step` with its own line. -/
theorem line_of_step_eq_error {openTags : OpenTags} {tag : Tag × Nat} {fault : StructuralError}
    (fails : step openTags tag = .error fault) : fault.line = tag.2 := by
  unfold step at fails
  split at fails
  · cases fails
  · split at fails
    · cases fails
      rfl
    · split at fails
      · cases fails
      · cases fails
        rfl
  · cases fails
    rfl
  all_goals cases fails

end OpenTags

/-- The tag that a fault is about: the first one that cannot follow the blocks that are open before
it, or the opening tag of the innermost block that is open at the end. -/
inductive PlacedTag.AtFault (tags : List PlacedTag) : PlacedTag → StructuralError → Prop where
  | here {before after : List PlacedTag} {tag : PlacedTag} {openTags : OpenTags}
      {fault : StructuralError} (split : tags = before ++ tag :: after)
      (passed : (before.map numbered).foldlM OpenTags.step [] = .ok openTags)
      (fails : OpenTags.step openTags tag.numbered = .error fault) : AtFault tags tag fault
  | unclosed {before after : List PlacedTag} {tag : PlacedTag} {openTags : OpenTags}
      {kind : BlockKind} {name : String} {line : Nat} (split : tags = before ++ tag :: after)
      (passed : (before.map numbered).foldlM OpenTags.step [] = .ok openTags)
      (opens : tag.meaning = .openBlock kind name)
      (closed : (after.map numbered).foldlM OpenTags.step [] = .ok []) :
      AtFault tags tag (.unclosed name line)

/-- Where `OpenTags.run` fails, one of the tags is at fault (`AtFault`), and its line is reported.
-/
theorem PlacedTag.exists_atFault {tags : List PlacedTag} {fault : StructuralError}
    (failed : OpenTags.run [] (tags.map numbered) = .error fault) :
    ∃ tag ∈ tags, AtFault tags tag fault ∧ fault.line = tag.line := by
  rcases OpenTags.run_eq_error failed with
    ⟨before, numberedTag, after, reached, split, passed, fails⟩ | ⟨name, line, enclosing, passed, rfl⟩
  · obtain ⟨front, back, rfl, rfl, backEq⟩ := List.map_eq_append_iff.1 split
    obtain ⟨tag, rest, rfl, rfl, rfl⟩ := List.map_eq_cons_iff.1 backEq
    exact ⟨tag, by simp, .here rfl passed fails, OpenTags.line_of_step_eq_error fails⟩
  · rcases OpenTags.exists_opening passed with ⟨since, nothing, _⟩ |
      ⟨before, kind, after, reached, split, entered, closed⟩
    · simp at nothing
    · obtain ⟨front, back, rfl, rfl, backEq⟩ := List.map_eq_append_iff.1 split
      obtain ⟨tag, rest, rfl, opening, rfl⟩ := List.map_eq_cons_iff.1 backEq
      obtain ⟨opens, sameLine⟩ := Prod.mk.inj opening
      exact ⟨tag, by simp, .unclosed rfl entered opens closed, sameLine.symm⟩

namespace Template

/-- The tags of a tree that `ofTokens` reads are those of its tokens without the directives. -/
theorem filterMap_tag?_itemsOf {tokens : List Token} {template : Template}
    (read : ofTokens tokens = .ok template) :
    (Node.itemsOf template.nodes).filterMap Item.tag? =
      (tokens.filterMap Token.tag?).filter (! ·.1.isPragma) := by
  have withoutPragma : ∀ item : Item,
      (if (! item.isPragma) = true then item.tag? else none) =
        item.tag?.filter (! ·.1.isPragma) := by
    intro item
    cases item with
    | text | newline => rfl
    | tag meaning line =>
      cases meaning with
      | openBlock | closeBlock | partialCall | interpolation | comment | pragma | empty => rfl
  have blind : ∀ item : Item, item.isTag = false → item.tag?.filter (! ·.1.isPragma) = none := by
    intro item noTag
    rw [Item.tag?_of_isTag_eq_false noTag]
    rfl
  rw [(itemsOf_of_ofTokens read).1, Item.filterMap_merge fun _ => Item.tag?_of_isTag_eq_false,
    List.filterMap_filter]
  simp only [withoutPragma]
  rw [Layout.filterMap_elide blind, Token.filterMap_tag?, List.filter_filterMap]

/-- The `warnings` of a template are those of the tags of its tokens. -/
theorem warnings_eq_filterMap {tokens : List Token} {template : Template}
    (read : ofTokens tokens = .ok template) :
    template.warnings =
      (tokens.filterMap Token.tag?).filterMap fun (meaning, line) => meaning.warning? line := by
  rw [(itemsOf_of_ofTokens read).2, Token.filterMap_tag?, List.filterMap_filterMap]
  congr 1
  funext item
  cases item <;> rfl

open Token in
/-- Every line that `parse` names is the line of a tag where it stands in the source. The tags of
the tree, a block giving one at each end, are those of the source with their lines, but for the
directives; these are the warnings; and every node lies within the lines around it. A fault is one
of scanning, and about a tag that does not end, or it is about one of the tags of the source; its
line is that of the tag. -/
theorem parse_lines (delimiters : Delimiters) (source : String) :
    match parse delimiters source with
    | .ok template =>
      ∃ tokens, scan delimiters source = .ok tokens ∧
        let tags := placedTags delimiters "" tokens
        (∀ tag ∈ tags, tag.StandsIn delimiters source) ∧
        (Node.itemsOf template.nodes).filterMap Item.tag? =
          (tags.filter (! ·.isPragma)).map PlacedTag.numbered ∧
        template.warnings = tags.filterMap PlacedTag.warning? ∧
        Node.AllWithin 1 (1 + source.toList.count '\n') template.nodes
    | .error fault =>
      (∃ before rest tokens,
        source = before ++ delimiters.opening ++ rest ∧
        fault.line = 1 + before.toList.count '\n' ∧
        Unended delimiters fault.line rest.toList fault ∧
        scan delimiters (before ++ delimiters.opening ++ delimiters.closing) =
          .ok (tokens ++ [.tag "" fault.line])) ∨
      ∃ tokens, scan delimiters source = .ok tokens ∧
        let tags := placedTags delimiters "" tokens
        (∀ tag ∈ tags, tag.StandsIn delimiters source) ∧
        ∃ tag ∈ tags, tag.AtFault tags fault ∧ fault.line = tag.line := by
  cases scanned : scan delimiters source with
  | error fault =>
    have failed : parse delimiters source = .error fault := by
      rw [parse, scanned]
      rfl
    rw [failed]
    exact Or.inl (scan_eq_error scanned)
  | ok tokens =>
    obtain ⟨canonical, written⟩ := canonical_of_scan scanned
    have numberedTags : tokens.filterMap tag? =
        (placedTags delimiters "" tokens).map PlacedTag.numbered :=
      Canonical.filterMap_tag? canonical
    have placed : ∀ tag ∈ placedTags delimiters "" tokens, tag.StandsIn delimiters source := by
      intro tag member
      have stands := standsIn_of_mem_placedTags member
      rwa [String.empty_append, written] at stands
    rw [parse_of_scan scanned]
    have run := run_tokens tokens
    cases read : ofTokens tokens with
    | error fault =>
      rw [read, numberedTags] at run
      exact Or.inr ⟨tokens, rfl, placed, PlacedTag.exists_atFault run⟩
    | ok template =>
      have treeTags : (Node.itemsOf template.nodes).filterMap Item.tag? =
          ((placedTags delimiters "" tokens).filter (! ·.isPragma)).map PlacedTag.numbered := by
        rw [filterMap_tag?_itemsOf read, numberedTags, List.filter_map]
        rfl
      have treeLines : Node.tagLines (Node.itemsOf template.nodes) =
          ((placedTags delimiters "" tokens).filter (! ·.isPragma)).map PlacedTag.line := by
        rw [Node.tagLines, treeTags, List.map_map]
        rfl
      refine ⟨tokens, rfl, placed, treeTags, ?_, ?_⟩
      · rw [warnings_eq_filterMap read, numberedTags, List.filterMap_map]
        rfl
      · refine Node.allWithin_of_growing _ ⟨?_, ?_⟩
        · rw [treeLines]
          exact List.pairwise_map.2 ((pairwise_line_placedTags delimiters "" tokens).filter _)
        · intro line member
          rw [treeLines] at member
          obtain ⟨tag, found, rfl⟩ := List.mem_map.1 member
          exact (placed tag (List.mem_filter.1 found).1).line_bounded

end Template

end Mustache
