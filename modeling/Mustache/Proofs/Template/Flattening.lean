import Mustache.Proofs.Compile.LiteralText
import Mustache.Proofs.Template.OpenTags

/-!
# A tree as a sequence of items

Reading a template keeps what it says. A tree written out depth first, each block between its two
tags, is the sequence of items that was read, but for what reading leaves out by design: the
blanks and the line ends of the lines that stand alone, and the directives, which become warnings.
Text is put together across line ends and directives, and never across another tag.
-/

namespace Mustache

namespace Tag

/-- Whether a tag is a directive. -/
def isPragma : Tag → Bool
  | .pragma _ => true
  | _ => false

/-- The warning that a tag on a line gives rise to. -/
def warning? (line : Nat) : Tag → Option Warning
  | .pragma directive => some (.unsupportedPragma directive line)
  | _ => none

end Tag

namespace Item

/-- Whether an item is a directive. -/
def isPragma : Item → Bool
  | .tag meaning _ => meaning.isPragma
  | .text _ | .newline => false

/-- The warning that an item gives rise to. -/
def warning? : Item → Option Warning
  | .tag meaning line => meaning.warning? line
  | .text _ | .newline => none

/-- Only tags give rise to a `warning?`. -/
theorem warning?_of_isTag_eq_false (item : Item) (noTag : item.isTag = false) :
    item.warning? = none := by
  cases item with
  | text | newline => rfl
  | tag => cases noTag

/-- A directive is complete in itself. -/
theorem isComplete_of_isPragma {item : Item} (pragma : item.isPragma = true) :
    item.isComplete = true := by
  cases item with
  | text | newline => rfl
  | tag meaning line =>
    cases meaning with
    | openBlock | closeBlock | empty => cases pragma
    | partialCall | interpolation | comment | pragma => rfl

/-- Text in front of items; it joins the text that follows. -/
def consText (content : String) : List Item → List Item
  | .text following :: rest => .text (content ++ following) :: rest
  | items => .text content :: items

/-- Items with line ends as text and with texts that meet put together by `consText`. -/
def merge : List Item → List Item
  | [] => []
  | .text content :: rest => consText content (merge rest)
  | .newline :: rest => consText "\n" (merge rest)
  | .tag meaning line :: rest => .tag meaning line :: merge rest

/-- Text that `consText` puts in front of items stays in front of a tag among them. -/
theorem consText_append_tag (content : String) (items : List Item) (meaning : Tag) (line : Nat)
    (rest : List Item) :
    consText content (items ++ .tag meaning line :: rest) =
      consText content items ++ .tag meaning line :: rest := by
  cases items with
  | nil => rfl
  | cons item others => cases item <;> rfl

/-- No text is put together by `merge` across a tag. -/
theorem merge_append_tag (items : List Item) (meaning : Tag) (line : Nat) (rest : List Item) :
    merge (items ++ .tag meaning line :: rest) =
      merge items ++ .tag meaning line :: merge rest := by
  induction items with
  | nil => rfl
  | cons item others inductionHypothesis =>
    cases item with
    | text content =>
      rw [List.cons_append, merge, merge, inductionHypothesis, consText_append_tag]
    | newline =>
      rw [List.cons_append, merge, merge, inductionHypothesis, consText_append_tag]
    | tag => rw [List.cons_append, merge, merge, inductionHypothesis, List.cons_append]

end Item

namespace Node

mutual

/-- A node written out: a block is its opening tag, its content and its closing tag. -/
def items : Node → List Item
  | .text content => [.text content]
  | .interpolation path escaped line => [.tag (.interpolation path escaped) line]
  | .block kind name children firstLine lastLine =>
    .tag (.openBlock kind name) firstLine ::
      (itemsOf children ++ [.tag (.closeBlock name) lastLine])
  | .partialCall name line => [.tag (.partialCall name) line]
  | .comment remark line => [.tag (.comment remark) line]

/-- Nodes written out one after the other. -/
def itemsOf : List Node → List Item
  | [] => []
  | node :: rest => items node ++ itemsOf rest

end

/-- Text joins the text that follows before and after `itemsOf` writes nodes out. -/
theorem itemsOf_consText (content : String) (nodes : List Node) :
    itemsOf (consText content nodes) = Item.consText content (itemsOf nodes) := by
  cases nodes with
  | nil => rfl
  | cons node rest => cases node <;> rfl

end Node

/-- The tree of a template, written out by `Node.itemsOf`, is its items without the directives, and
these are its warnings. -/
theorem Template.Spelled.itemsOf_eq {items : List Item} {template : Template}
    (spelled : Spelled items template) :
    Node.itemsOf template.nodes = Item.merge (items.filter (! ·.isPragma)) ∧
      template.warnings = items.filterMap Item.warning? := by
  induction spelled with
  | empty => exact ⟨rfl, rfl⟩
  | @item item rest template complete _ inductionHypothesis =>
    obtain ⟨written, warned⟩ := inductionHypothesis
    cases item with
    | text content =>
      refine ⟨?_, warned⟩
      rw [Item.addTo, Node.itemsOf_consText, written]
      rfl
    | newline =>
      refine ⟨?_, warned⟩
      rw [Item.addTo, Node.itemsOf_consText, written]
      rfl
    | tag meaning line =>
      cases meaning with
      | openBlock | closeBlock | empty => cases complete
      | pragma directive => exact ⟨written, congrArg (_ :: ·) warned⟩
      | partialCall | interpolation | comment => exact ⟨congrArg (_ :: ·) written, warned⟩
  | @block kind name firstLine lastLine inner rest content template _ _ bodyHypothesis
      followingHypothesis =>
    obtain ⟨bodyWritten, bodyWarned⟩ := bodyHypothesis
    obtain ⟨written, warned⟩ := followingHypothesis
    constructor
    · rw [List.filter_cons_of_pos rfl, List.filter_append, List.filter_cons_of_pos rfl,
        Item.merge, Item.merge_append_tag, ← bodyWritten, ← written, addBlock, Node.itemsOf,
        Node.items]
      simp
    · rw [addBlock, bodyWarned, warned, List.filterMap_cons_none rfl, List.filterMap_append,
        List.filterMap_cons_none rfl]

namespace Layout

/-- What is left of a line: its tags when it stands alone, all of it otherwise. -/
def kept (line : List (Item × Option BlockTag)) : List Item :=
  if StandsAlone line then (line.map (·.1)).filter Item.isTag else line.map (·.1)

theorem keepMarked_map (line : List (Item × Option BlockTag)) :
    keepMarked (line.map fun attached => (attached.1, spansLines attached)) = kept line := by
  simp only [keepMarked, kept, standsAlone_iff, List.map_map]
  rfl

/-- Of paired items `elide` leaves what is `kept` of each line. -/
theorem elide_eq_flatMap_kept {items : List Item} {tags : List BlockTag}
    (paired : Paired items tags) : elide items = (attachedLines items tags).flatMap kept := by
  rw [elide_eq_flatMap, marked_eq_of_paired paired, linesAfter_map, List.flatMap_map,
    ← attachedLines]
  simp only [keepMarked_map]

/-- What is `kept` of lines has all that is seen of their tags. -/
theorem filterMap_kept {β : Type} {view : Item → Option β}
    (blind : ∀ item, item.isTag = false → view item = none) (items : List Item)
    (tags : List BlockTag) :
    ((attachedLines items tags).flatMap kept).filterMap view = items.filterMap view := by
  have ofLine : ∀ line, (kept line).filterMap view = (line.map (·.1)).filterMap view := by
    intro line
    rw [← keepMarked_map, filterMap_keepMarked blind, List.map_map]
    rfl
  rw [List.filterMap_flatMap]
  simp only [ofLine]
  rw [← List.filterMap_flatMap, List.flatMap_def, ← List.map_flatten, attachedLines,
    flatten_linesAfter, map_fst_attach]

end Layout

namespace Node

mutual

/-- The tags of a node that `items` writes out are `Paired` as those of its blocks. -/
theorem paired_items (node : Node) : Paired node.items (tagsOf node) := by
  cases node with
  | block kind name children firstLine lastLine =>
    rw [items, tagsOf]
    exact .block (paired_itemsOf children) .nil
  | text | interpolation | partialCall | comment => exact .other rfl .nil

/-- The tags of nodes that `itemsOf` writes out are `Paired` as those of their blocks. -/
theorem paired_itemsOf (nodes : List Node) : Paired (itemsOf nodes) (blockTags nodes) := by
  cases nodes with
  | nil => exact .nil
  | cons node rest =>
    rw [itemsOf, blockTags]
    exact (paired_items node).append (paired_itemsOf rest)

end

mutual

theorem run_items (node : Node) (openTags : OpenTags) (following : List (Tag × Nat)) :
    OpenTags.run openTags (node.items.filterMap Item.tag? ++ following) =
      OpenTags.run openTags following := by
  cases node with
  | text => rfl
  | interpolation | partialCall | comment => exact OpenTags.run_cons ..
  | block kind name children firstLine lastLine =>
    have written : (block kind name children firstLine lastLine).items.filterMap Item.tag? ++
          following =
        (.openBlock kind name, firstLine) :: ((itemsOf children).filterMap Item.tag? ++
          (.closeBlock name, lastLine) :: following) := by
      simp [items, Item.tag?]
    rw [written, OpenTags.run_cons]
    change OpenTags.run ((name, firstLine) :: openTags) _ = _
    rw [run_itemsOf children, OpenTags.run_cons]
    simp only [OpenTags.step, if_true]
    rfl

/-- Nodes that `itemsOf` writes out leave the blocks that are open as they are in `OpenTags.run`. -/
theorem run_itemsOf (nodes : List Node) (openTags : OpenTags) (following : List (Tag × Nat)) :
    OpenTags.run openTags ((itemsOf nodes).filterMap Item.tag? ++ following) =
      OpenTags.run openTags following := by
  cases nodes with
  | nil => rfl
  | cons node rest =>
    rw [itemsOf, List.filterMap_append, List.append_assoc, run_items node, run_itemsOf rest]

end

/-- Items that are empty or begin with a closing tag. -/
def EndsHere (items : List Item) : Prop :=
  ∀ item ∈ items.head?, ∃ name line, item = .tag (.closeBlock name) line

/-- No node begins with a closing tag (`EndsHere`). -/
theorem not_endsHere (node : Node) (following : List Item) :
    ¬ EndsHere (node.items ++ following) := by
  intro ended
  cases node with
  | text | interpolation | block | partialCall | comment =>
    obtain ⟨name, line, same⟩ := ended _ rfl
    cases same

mutual

theorem items_append_inj {left right : Node} {leftRest rightRest : List Item}
    (same : left.items ++ leftRest = right.items ++ rightRest) :
    left = right ∧ leftRest = rightRest := by
  cases left with
  | block kind name children firstLine lastLine =>
    cases right with
    | block otherKind otherName otherChildren otherFirst otherLast =>
      simp only [items, List.cons_append, List.append_assoc, List.nil_append, List.cons.injEq,
        Item.tag.injEq, Tag.openBlock.injEq] at same
      obtain ⟨⟨⟨rfl, rfl⟩, rfl⟩, contents⟩ := same
      obtain ⟨rfl, rests⟩ := itemsOf_append_inj (by simp [EndsHere]) (by simp [EndsHere]) contents
      simp only [List.cons.injEq, Item.tag.injEq] at rests
      obtain ⟨⟨_, rfl⟩, rfl⟩ := rests
      exact ⟨rfl, rfl⟩
    | text | interpolation | partialCall | comment => simp [items] at same
  | text | interpolation | partialCall | comment =>
    cases right <;> simp_all [items]

/-- Nodes that `itemsOf` writes out tell which nodes they are and where they end. -/
theorem itemsOf_append_inj {left right : List Node} {leftRest rightRest : List Item}
    (leftEnds : EndsHere leftRest) (rightEnds : EndsHere rightRest)
    (same : itemsOf left ++ leftRest = itemsOf right ++ rightRest) :
    left = right ∧ leftRest = rightRest := by
  cases left with
  | nil =>
    cases right with
    | nil => exact ⟨rfl, same⟩
    | cons node rest =>
      rw [itemsOf, itemsOf, List.nil_append, List.append_assoc] at same
      exact absurd (same ▸ leftEnds) (not_endsHere node _)
  | cons node rest =>
    cases right with
    | nil =>
      rw [itemsOf, itemsOf, List.nil_append, List.append_assoc] at same
      exact absurd (same ▸ rightEnds) (not_endsHere node _)
    | cons other others =>
      rw [itemsOf, itemsOf, List.append_assoc, List.append_assoc] at same
      obtain ⟨rfl, following⟩ := items_append_inj same
      obtain ⟨rfl, rests⟩ := itemsOf_append_inj leftEnds rightEnds following
      exact ⟨rfl, rests⟩

end

/-- Different trees are written out differently by `itemsOf`. -/
theorem itemsOf_inj {left right : List Node} (same : itemsOf left = itemsOf right) :
    left = right := by
  have nothing : EndsHere [] := by simp [EndsHere]
  refine (itemsOf_append_inj nothing nothing ?_).1
  rw [List.append_nil, List.append_nil, same]

end Node

namespace Item

/-- Putting texts together with `merge` leaves all that is seen of tags. -/
theorem filterMap_merge {β : Type} {view : Item → Option β}
    (blind : ∀ item, item.isTag = false → view item = none) (items : List Item) :
    (merge items).filterMap view = items.filterMap view := by
  have consSeen : ∀ content others,
      (consText content others).filterMap view = others.filterMap view := by
    intro content others
    have textUnseen : ∀ text, view (.text text) = none := fun _ => blind _ rfl
    unfold consText
    split <;> simp [textUnseen]
  induction items with
  | nil => rfl
  | cons item rest inductionHypothesis =>
    cases item with
    | text content =>
      rw [merge, consSeen, inductionHypothesis, List.filterMap_cons_none (blind _ rfl)]
    | newline =>
      rw [merge, consSeen, inductionHypothesis, List.filterMap_cons_none (blind _ rfl)]
    | tag meaning line =>
      rw [merge, List.filterMap_cons, List.filterMap_cons, inductionHypothesis]

end Item

/-- Directives leave the blocks that are open as they are in `OpenTags.run`. -/
theorem OpenTags.run_withoutPragmas (openTags : OpenTags) (items : List Item) :
    run openTags ((items.filter (! ·.isPragma)).filterMap Item.tag?) =
      run openTags (items.filterMap Item.tag?) := by
  induction items generalizing openTags with
  | nil => rfl
  | cons item rest inductionHypothesis =>
    cases pragma : item.isPragma with
    | true =>
      rw [List.filter_cons_of_neg (by simp [pragma]), inductionHypothesis,
        run_complete (Item.isComplete_of_isPragma pragma)]
    | false =>
      rw [List.filter_cons_of_pos (by simp [pragma]), List.filterMap_cons, List.filterMap_cons]
      cases item.tag? with
      | none => exact inductionHypothesis openTags
      | some tag =>
        simp only [run_cons, inductionHypothesis]

namespace Template

/-- What `ofTokens` reads, written out by `Node.itemsOf`, is what `Layout.elide` leaves of the
tokens. -/
theorem itemsOf_of_ofTokens {tokens : List Token} {template : Template}
    (read : ofTokens tokens = .ok template) :
    Node.itemsOf template.nodes =
        Item.merge ((Layout.elide (tokens.map Item.ofToken)).filter (! ·.isPragma)) ∧
      template.warnings = (tokens.map Item.ofToken).filterMap Item.warning? := by
  have spelled := spelled_of_ofTokens read
  obtain ⟨written, warned⟩ := spelled.itemsOf_eq
  exact ⟨written, warned.trans (Layout.filterMap_elide Item.warning?_of_isTag_eq_false _)⟩

/-- What is left of lines, without directives and with its texts put together, has the block tags
of the items. -/
theorem filter_isControl_merge_kept (items : List Item) (tags : List BlockTag) :
    (Item.merge (((Layout.attachedLines items tags).flatMap Layout.kept).filter
      (! ·.isPragma))).filter Item.isControl = items.filter Item.isControl := by
  have noPragma : ∀ item : Item,
      (if (! item.isPragma) = true then Option.guard Item.isControl item else none) =
        Option.guard Item.isControl item := by
    intro item
    cases item with
    | text | newline => rfl
    | tag meaning line => cases meaning <;> rfl
  rw [← List.filterMap_eq_filter,
    Item.filterMap_merge Layout.guard_isControl_of_isTag_eq_false, List.filterMap_filter]
  simp only [noPragma]
  rw [Layout.filterMap_kept Layout.guard_isControl_of_isTag_eq_false]

/-- Tokens that could be written out from a tree are read by `ofTokens` as some tree. -/
theorem exists_ofTokens_of_itemsOf {tokens : List Token} {nodes : List Node}
    (written : Node.itemsOf nodes =
      Item.merge (((Layout.attachedLines (tokens.map Item.ofToken)
        (Node.blockTags nodes)).flatMap Layout.kept).filter (! ·.isPragma))) :
    ∃ template, ofTokens tokens = .ok template := by
  have passed : OpenTags.run [] (tokens.filterMap Token.tag?) = .ok () := by
    have throughNodes := Node.run_itemsOf nodes [] []
    rw [List.append_nil, written, Item.filterMap_merge fun _ => Item.tag?_of_isTag_eq_false,
      OpenTags.run_withoutPragmas, Layout.filterMap_kept fun _ => Item.tag?_of_isTag_eq_false,
      ← Token.filterMap_tag?] at throughNodes
    exact throughNodes
  rw [run_tokens] at passed
  cases read : ofTokens tokens with
  | error =>
    rw [read] at passed
    cases passed
  | ok template => exact ⟨template, rfl⟩

/-- Tokens are read by `ofTokens` as the one tree that, written out by `Node.itemsOf`, is the tokens
again: without the blanks and the line ends of the lines that stand alone, without the directives,
and with the texts that meet then put together. The directives are the warnings. Each line is judged
by the partners that its tags have in the tree. -/
theorem ofTokens_eq_ok_iff (tokens : List Token) (template : Template) :
    ofTokens tokens = .ok template ↔
      Node.itemsOf template.nodes =
          Item.merge (((Layout.attachedLines (tokens.map Item.ofToken)
            (Node.blockTags template.nodes)).flatMap Layout.kept).filter (! ·.isPragma)) ∧
        template.warnings = (tokens.map Item.ofToken).filterMap Item.warning? := by
  constructor
  · intro read
    have spelled := spelled_of_ofTokens read
    rw [← Layout.elide_eq_flatMap_kept spelled.paired.of_elide]
    exact itemsOf_of_ofTokens read
  · rintro ⟨written, warned⟩
    obtain ⟨other, read⟩ := exists_ofTokens_of_itemsOf written
    obtain ⟨otherWritten, otherWarned⟩ := itemsOf_of_ofTokens read
    have paired : Paired (tokens.map Item.ofToken) (Node.blockTags template.nodes) := by
      refine (Node.paired_itemsOf template.nodes).of_filter_eq ?_
      rw [written, filter_isControl_merge_kept]
    rw [← Layout.elide_eq_flatMap_kept paired, ← otherWritten] at written
    have sameNodes := Node.itemsOf_inj written
    have sameWarnings := warned.trans otherWarned.symm
    obtain ⟨nodes, warnings⟩ := template
    dsimp only at sameNodes sameWarnings
    rw [read, sameNodes, sameWarnings]

end Template

end Mustache
