import Mustache.Proofs.Template.Grammar

/-!
# Which tag belongs to which

The tags of a tree's blocks in the order of the template, each with the line of its partner.
`Paired items tags` says that the tags of a sequence of items nest and are these. Two things meet
here: `Template.Spelled.paired` reads the pairs off a tree whose names agree, and
`Paired.mem_spanningFrom` finds the same pairs by the pass that looks for lines that stand alone,
which knows no names.
-/

namespace Mustache

/-- Whether an item is a tag that opens or closes a block. -/
def Item.isControl : Item → Bool
  | .tag meaning _ => meaning.isControl
  | _ => false

/-- A tag that opens or closes a block, with its line and that of its partner. -/
structure BlockTag where
  /-- The meaning of the tag. -/
  meaning : Tag
  /-- The line of the tag. -/
  line : Nat
  /-- The line of the tag at the other end of the block. -/
  partnerLine : Nat
  deriving Repr, DecidableEq, Inhabited

namespace BlockTag

/-- Whether a tag has its partner on another line. -/
def spansLines (tag : BlockTag) : Bool :=
  tag.line != tag.partnerLine

/-- The tag that opens a block. -/
def opening (kind : BlockKind) (name : String) (firstLine lastLine : Nat) : BlockTag :=
  ⟨.openBlock kind name, firstLine, lastLine⟩

/-- The tag that closes a block. -/
def closing (name : String) (firstLine lastLine : Nat) : BlockTag :=
  ⟨.closeBlock name, lastLine, firstLine⟩

end BlockTag

namespace Node

mutual

/-- The tags of a node's blocks, in the order of the template. -/
def tagsOf : Node → List BlockTag
  | .block kind name children firstLine lastLine =>
    .opening kind name firstLine lastLine ::
      (blockTags children ++ [.closing name firstLine lastLine])
  | _ => []

/-- The tags of the blocks of nodes, in the order of the template. -/
def blockTags : List Node → List BlockTag
  | [] => []
  | node :: rest => tagsOf node ++ blockTags rest

end

/-- Text that `consText` puts in front has no tags. -/
@[simp] theorem blockTags_consText (content : String) (nodes : List Node) :
    blockTags (consText content nodes) = blockTags nodes := by
  cases nodes with
  | nil => rfl
  | cons node rest => cases node <;> simp [consText, blockTags, tagsOf]

end Node

/-- The block tags of a sequence of items nest, whatever their names, and are these. -/
inductive Paired : List Item → List BlockTag → Prop where
  | nil : Paired [] []
  | other {item : Item} {rest : List Item} {tags : List BlockTag}
      (notControl : item.isControl = false) (following : Paired rest tags) :
      Paired (item :: rest) tags
  | block {kind : BlockKind} {name closingName : String} {firstLine lastLine : Nat}
      {inner rest : List Item} {innerTags tags : List BlockTag}
      (body : Paired inner innerTags) (following : Paired rest tags) :
      Paired
        (.tag (.openBlock kind name) firstLine ::
          (inner ++ .tag (.closeBlock closingName) lastLine :: rest))
        (.opening kind name firstLine lastLine ::
          (innerTags ++ .closing closingName firstLine lastLine :: tags))

/-- The tags of a template's items are `Paired` as those of its tree. -/
theorem Template.Spelled.paired {items : List Item} {template : Template}
    (spelled : Spelled items template) : Paired items (Node.blockTags template.nodes) := by
  induction spelled with
  | empty => exact .nil
  | @item item rest template complete _ inductionHypothesis =>
    have sameTags : Node.blockTags (item.addTo template).nodes =
        Node.blockTags template.nodes := by
      unfold Item.addTo
      split <;> simp [Node.blockTags, Node.tagsOf]
    have notControl : item.isControl = false := by
      cases item with
      | text | newline => rfl
      | tag meaning line =>
        cases meaning with
        | openBlock | closeBlock => cases complete
        | partialCall | interpolation | comment | pragma | empty => rfl
    rw [sameTags]
    exact .other notControl inductionHypothesis
  | @block kind name firstLine lastLine inner rest content template _ _ bodyHypothesis
      followingHypothesis =>
    have tags : Node.blockTags (addBlock kind name firstLine lastLine content template).nodes =
        .opening kind name firstLine lastLine :: (Node.blockTags content.nodes ++
          .closing name firstLine lastLine :: Node.blockTags template.nodes) := by
      simp [addBlock, Node.blockTags, Node.tagsOf]
    rw [tags]
    exact .block bodyHypothesis followingHypothesis

namespace Paired

/-- Items that are no block tags may stand in front of `Paired` ones. -/
theorem append_others {others rest : List Item} {tags : List BlockTag}
    (notControl : ∀ item ∈ others, item.isControl = false) (paired : Paired rest tags) :
    Paired (others ++ rest) tags := by
  induction others with
  | nil => exact paired
  | cons item others inductionHypothesis =>
    exact .other (notControl item List.mem_cons_self)
      (inductionHypothesis fun other member => notControl other (List.mem_cons_of_mem _ member))

/-- Items that are `Paired` may follow each other. -/
theorem append {first second : List Item} {firstTags secondTags : List BlockTag}
    (firstPaired : Paired first firstTags) (secondPaired : Paired second secondTags) :
    Paired (first ++ second) (firstTags ++ secondTags) := by
  induction firstPaired with
  | nil => exact secondPaired
  | other notControl _ inductionHypothesis => exact .other notControl inductionHypothesis
  | block body _ _ inductionHypothesis =>
    simpa using Paired.block body inductionHypothesis

/-- Without the other items block tags are `Paired` as they were. -/
theorem filter {items : List Item} {tags : List BlockTag} (paired : Paired items tags) :
    Paired (items.filter Item.isControl) tags := by
  induction paired with
  | nil => exact .nil
  | other notControl _ inductionHypothesis =>
    rwa [List.filter_cons_of_neg (by simp [notControl])]
  | block _ _ bodyHypothesis followingHypothesis =>
    rw [List.filter_cons_of_pos rfl, List.filter_append, List.filter_cons_of_pos rfl]
    exact .block bodyHypothesis followingHypothesis

/-- Among other items block tags are `Paired` as they were. -/
theorem of_filter {items controls : List Item} {tags : List BlockTag}
    (paired : Paired controls tags) (filtered : items.filter Item.isControl = controls) :
    Paired items tags := by
  have othersOnly : ∀ {others : List Item},
      (∀ item ∈ others, ¬ item.isControl = true) → ∀ item ∈ others, item.isControl = false :=
    fun none item member => Bool.eq_false_iff.2 (none item member)
  induction paired generalizing items with
  | nil =>
    rw [← List.append_nil items]
    exact append_others (othersOnly (List.filter_eq_nil_iff.1 filtered)) .nil
  | @other item rest tags notControl following inductionHypothesis =>
    have control : item.isControl = true :=
      (List.mem_filter.1 (filtered ▸ List.mem_cons_self)).2
    rw [control] at notControl
    cases notControl
  | @block kind name closingName firstLine lastLine inner rest innerTags tags _ _ bodyHypothesis
      followingHypothesis =>
    obtain ⟨before, afterOpen, rfl, beforeNone, _, afterOpenFiltered⟩ :=
      List.filter_eq_cons_iff.1 filtered
    obtain ⟨body, fromClose, rfl, bodyFiltered, fromCloseFiltered⟩ :=
      List.filter_eq_append_iff.1 afterOpenFiltered
    obtain ⟨beforeClose, afterClose, rfl, beforeCloseNone, _, afterCloseFiltered⟩ :=
      List.filter_eq_cons_iff.1 fromCloseFiltered
    have whole : Paired (body ++ beforeClose) innerTags := by
      rw [← List.append_nil innerTags]
      refine append (bodyHypothesis bodyFiltered) ?_
      rw [← List.append_nil beforeClose]
      exact append_others (othersOnly beforeCloseNone) .nil
    refine append_others (othersOnly beforeNone) ?_
    simpa using Paired.block whole (followingHypothesis afterCloseFiltered)

/-- Only the block tags matter for how items are `Paired`. -/
theorem of_filter_eq {items others : List Item} {tags : List BlockTag}
    (paired : Paired others tags)
    (sameControls : items.filter Item.isControl = others.filter Item.isControl) :
    Paired items tags :=
  of_filter paired.filter sameControls

/-- The block tags among `Paired` items are those that are paired, in their order. -/
theorem filter_eq {items : List Item} {tags : List BlockTag} (paired : Paired items tags) :
    items.filter Item.isControl = tags.map fun tag => .tag tag.meaning tag.line := by
  induction paired with
  | nil => rfl
  | other notControl _ inductionHypothesis =>
    rw [List.filter_cons_of_neg (by simp [notControl]), inductionHypothesis]
  | block _ _ bodyHypothesis followingHypothesis =>
    rw [List.filter_cons_of_pos rfl, List.filter_append, List.filter_cons_of_pos rfl,
      bodyHypothesis, followingHypothesis]
    simp [BlockTag.opening, BlockTag.closing]

/-- There are as many block tags among `Paired` items as are paired. -/
theorem countP_eq {items : List Item} {tags : List BlockTag} (paired : Paired items tags) :
    items.countP Item.isControl = tags.length := by
  rw [List.countP_eq_length_filter, paired.filter_eq, List.length_map]

end Paired

namespace Layout

/-- Each item with the `BlockTag` that it is, the tags being handed out in order. -/
def attach : List Item → List BlockTag → List (Item × Option BlockTag)
  | [], _ => []
  | item :: rest, tags =>
    if item.isControl then (item, tags.head?) :: attach rest tags.tail
    else (item, none) :: attach rest tags

/-- Whether an item is a tag with its partner on another line. -/
def spansLines (attached : Item × Option BlockTag) : Bool :=
  attached.2.any BlockTag.spansLines

theorem attach_control {item : Item} (control : item.isControl = true) (rest : List Item)
    (tag : BlockTag) (tags : List BlockTag) :
    attach (item :: rest) (tag :: tags) = (item, some tag) :: attach rest tags := by
  rw [attach, if_pos control, List.head?_cons, List.tail_cons]

theorem attach_other {item : Item} (notControl : item.isControl = false) (rest : List Item)
    (tags : List BlockTag) : attach (item :: rest) tags = (item, none) :: attach rest tags := by
  rw [attach, notControl, if_neg Bool.false_ne_true]

/-- Handing out tags with `attach` leaves the items as they are. -/
theorem map_fst_attach (items : List Item) (tags : List BlockTag) :
    (attach items tags).map (·.1) = items := by
  induction items generalizing tags with
  | nil => rfl
  | cons item rest inductionHypothesis =>
    unfold attach
    split <;> simp [inductionHypothesis]

/-- Tags are handed out by `attach` part by part. -/
theorem attach_append {first second : List Item} {firstTags secondTags : List BlockTag}
    (enough : first.countP Item.isControl = firstTags.length) :
    attach (first ++ second) (firstTags ++ secondTags) =
      attach first firstTags ++ attach second secondTags := by
  induction first generalizing firstTags with
  | nil =>
    rw [List.countP_nil] at enough
    rw [List.eq_nil_of_length_eq_zero enough.symm]
    rfl
  | cons item rest inductionHypothesis =>
    cases control : item.isControl with
    | true =>
      rw [List.countP_cons_of_pos control] at enough
      cases firstTags with
      | nil => cases enough
      | cons tag others =>
        rw [List.cons_append, List.cons_append, attach_control control, attach_control control,
          inductionHypothesis (by simpa using enough), List.cons_append]
    | false =>
      rw [List.countP_cons_of_neg (by simp [control])] at enough
      rw [List.cons_append, attach_other control, attach_other control,
        inductionHypothesis enough, List.cons_append]

/-- The tags of a block are handed out by `attach` to its two ends and to what is between them. -/
theorem attach_block {inner : List Item} {innerTags : List BlockTag}
    (paired : Paired inner innerTags) (kind : BlockKind) (name closingName : String)
    (firstLine lastLine : Nat) (rest : List Item) (tags : List BlockTag) :
    attach
        (.tag (.openBlock kind name) firstLine ::
          (inner ++ .tag (.closeBlock closingName) lastLine :: rest))
        (.opening kind name firstLine lastLine ::
          (innerTags ++ .closing closingName firstLine lastLine :: tags)) =
      (.tag (.openBlock kind name) firstLine, some (.opening kind name firstLine lastLine)) ::
        (attach inner innerTags ++
          (.tag (.closeBlock closingName) lastLine,
            some (.closing closingName firstLine lastLine)) :: attach rest tags) := by
  rw [attach_control rfl, attach_append paired.countP_eq, attach_control rfl]

/-- The positions of the items for which a tag with its partner on another line was handed
out; `position` is that of the first item. -/
def spanningPositions (position : Nat) : List (Item × Option BlockTag) → List Nat
  | [] => []
  | attached :: rest =>
    if spansLines attached then position :: spanningPositions (position + 1) rest
    else spanningPositions (position + 1) rest

theorem spanningPositions_append (position : Nat) (first second : List (Item × Option BlockTag)) :
    spanningPositions position (first ++ second) =
      spanningPositions position first ++ spanningPositions (position + first.length) second := by
  induction first generalizing position with
  | nil => rfl
  | cons attached rest inductionHypothesis =>
    rw [List.cons_append, spanningPositions, spanningPositions, inductionHypothesis,
      List.length_cons, Nat.add_assoc, Nat.add_comm 1]
    split <;> rfl

theorem le_of_mem_spanningPositions {position wanted : Nat}
    {attached : List (Item × Option BlockTag)}
    (member : wanted ∈ spanningPositions position attached) : position ≤ wanted := by
  induction attached generalizing position with
  | nil => cases member
  | cons head rest inductionHypothesis =>
    have later : wanted ∈ spanningPositions (position + 1) rest → position ≤ wanted :=
      fun member => Nat.le_of_succ_le (inductionHypothesis member)
    rw [spanningPositions] at member
    split at member
    · rcases List.mem_cons.1 member with rfl | member
      · exact Nat.le_refl _
      · exact later member
    · exact later member

/-- An item's position is among the `spanningPositions` exactly if its tag has its partner on
another line. -/
theorem add_mem_spanningPositions (position index : Nat)
    (attached : List (Item × Option BlockTag)) :
    position + index ∈ spanningPositions position attached ↔
      attached[index]?.any spansLines = true := by
  induction attached generalizing position index with
  | nil => simp [spanningPositions]
  | cons head rest inductionHypothesis =>
    have notLater : position ∉ spanningPositions (position + 1) rest :=
      fun member => absurd (le_of_mem_spanningPositions member) (Nat.not_succ_le_self _)
    cases index with
    | zero =>
      rw [spanningPositions]
      by_cases spans : spansLines head = true
      · simp [spans]
      · simp [spans, notLater]
    | succ index =>
      have following := inductionHypothesis (position + 1) index
      rw [Nat.add_right_comm, Nat.add_assoc] at following
      rw [spanningPositions, List.getElem?_cons_succ, ← following]
      split
      · rw [List.mem_cons]
        exact or_iff_right (by omega)
      · rfl

end Layout

open Layout in
/-- The pass `spanningFrom` that looks for tags spanning lines finds the tags of paired items whose
partner is on another line, and leaves the tags that were open before as they are. -/
theorem Paired.mem_spanningFrom {items : List Item} {tags : List BlockTag}
    (paired : Paired items tags) (position : Nat) (openTags : List (Nat × Nat))
    (rest : List Item) (wanted : Nat) :
    wanted ∈ spanningFrom position openTags (items ++ rest) ↔
      wanted ∈ spanningPositions position (attach items tags) ∨
        wanted ∈ spanningFrom (position + items.length) openTags rest := by
  induction paired generalizing position openTags rest with
  | nil => simp [attach, spanningPositions]
  | @other item following tags notControl _ inductionHypothesis =>
    have skipped : spanningFrom position openTags (item :: following ++ rest) =
        spanningFrom (position + 1) openTags (following ++ rest) := by
      cases item with
      | text | newline => rfl
      | tag meaning line =>
        cases meaning with
        | openBlock | closeBlock => cases notControl
        | partialCall | interpolation | comment | pragma | empty => rfl
    rw [skipped, inductionHypothesis, attach_other notControl, spanningPositions,
      List.length_cons, Nat.add_assoc, Nat.add_comm 1]
    rfl
  | @block kind name closingName firstLine lastLine inner following innerTags tags body _
      bodyHypothesis followingHypothesis =>
    -- The pass puts the opening tag on its stack, comes back to it at the closing tag, and
    -- compares the two lines; the same comparison decides for both attached tags.
    have passed : spanningFrom position openTags
        (.tag (.openBlock kind name) firstLine ::
          (inner ++ .tag (.closeBlock closingName) lastLine :: following) ++ rest) =
        spanningFrom (position + 1) ((position, firstLine) :: openTags)
          (inner ++ .tag (.closeBlock closingName) lastLine :: (following ++ rest)) := by
      rw [List.cons_append, List.append_assoc, List.cons_append, spanningFrom]
    have innerLength : (attach inner innerTags).length = inner.length := by
      rw [← List.length_map (·.1), map_fst_attach]
    have afterBlock := followingHypothesis (position + 1 + inner.length + 1) openTags rest
    rw [passed, bodyHypothesis, spanningFrom, attach_block body, spanningPositions,
      spanningPositions_append, spanningPositions, innerLength]
    have total : position +
        (Item.tag (.openBlock kind name) firstLine ::
          (inner ++ Item.tag (.closeBlock closingName) lastLine :: following)).length =
        position + 1 + inner.length + 1 + following.length := by
      simp only [List.length_cons, List.length_append]
      omega
    rw [total]
    have sameDecision : spansLines (.tag (.openBlock kind name) firstLine,
          some (.opening kind name firstLine lastLine)) = (firstLine != lastLine) ∧
        spansLines (.tag (.closeBlock closingName) lastLine,
          some (.closing closingName firstLine lastLine)) = (firstLine != lastLine) :=
      ⟨rfl, bne_comm⟩
    rw [sameDecision.1, sameDecision.2]
    by_cases sameLine : firstLine = lastLine
    · simp [sameLine, afterBlock, or_assoc]
    · simp only [ne_eq, sameLine, not_false_eq_true, if_true, bne_iff_ne, List.mem_cons,
        List.mem_append, afterBlock]
      grind

end Mustache
