import Mathlib.Data.List.Basic
import Mustache.Proofs.Program.Items
import Mustache.Proofs.Template.CanonicalTokens
import Mustache.Proofs.Template.OpenTags

/-!
# What remarks say

What a remark says, and over how many lines, changes nothing but the lines of the tags after it.
A pair of tags can come to stand on two lines instead of one because of a remark between them.
That is of no account, for then they and the remark have no line end between them, and the line on
which they all are does not stand alone because of the remark. `Paired.exists_alike` carries this
through nested blocks: two runs over items that are in step fall into lines that are alike.
-/

namespace Mustache

namespace Tag

/-- Whether a tag is a remark. -/
def isComment : Tag → Bool
  | .comment _ => true
  | _ => false

/-- A tag without what it remarks. -/
def bare : Tag → Tag
  | .comment _ => .comment ""
  | meaning => meaning

@[simp] theorem isComment_bare (meaning : Tag) : meaning.bare.isComment = meaning.isComment := by
  cases meaning <;> rfl

@[simp] theorem isControl_bare (meaning : Tag) : meaning.bare.isControl = meaning.isControl := by
  cases meaning <;> rfl

@[simp] theorem instruction?_bare (meaning : Tag) :
    meaning.bare.instruction? = meaning.instruction? := by
  cases meaning <;> rfl

end Tag

namespace Item

/-- Whether an item is a remark. -/
def isComment : Item → Bool
  | .tag meaning _ => meaning.isComment
  | .text _ | .newline => false

/-- An item without its line and without what it remarks. -/
def bare : Item → Item
  | .tag meaning _ => .tag meaning.bare 0
  | .text content => .text content
  | .newline => .newline

@[simp] theorem isComment_bare (item : Item) : item.bare.isComment = item.isComment := by
  cases item with
  | text | newline => rfl
  | tag meaning => exact meaning.isComment_bare

@[simp] theorem isNewline_bare (item : Item) : item.bare.isNewline = item.isNewline := by
  cases item <;> rfl

@[simp] theorem isTag_bare (item : Item) : item.bare.isTag = item.isTag := by
  cases item <;> rfl

@[simp] theorem isControl_bare (item : Item) : item.bare.isControl = item.isControl := by
  cases item with
  | text | newline => rfl
  | tag meaning => exact meaning.isControl_bare

@[simp] theorem fitsStandalone_bare (item : Item) :
    item.bare.fitsStandalone = item.fitsStandalone := by
  cases item with
  | text | newline => rfl
  | tag meaning => exact meaning.isControl_bare

/-- A remark does not fit a line that stands alone. -/
theorem fitsStandalone_of_isComment {item : Item} (remark : item.isComment = true) :
    item.fitsStandalone = false := by
  cases item with
  | text | newline => cases remark
  | tag meaning line =>
    cases meaning with
    | comment => rfl
    | openBlock | closeBlock | partialCall | interpolation | pragma | empty => cases remark

end Item

/-- The instructions `ofItems` of some items do not depend on their lines and on what is remarked.
-/
theorem Instruction.ofItems_bare (items : List Item) :
    ofItems (items.map Item.bare) = ofItems items := by
  induction items with
  | nil => rfl
  | cons item rest inductionHypothesis =>
    cases item <;> simp only [List.map_cons, Item.bare, ofItems, inductionHypothesis,
      Tag.instruction?_bare]

/-- An item of each of two sequences, from a line in each to a line in each: the same one but for
its line and what it remarks. A remark may take any number of lines; everything else takes as many
in the one sequence as in the other. -/
inductive Item.InStep : Nat → Nat → Item → Item → Nat → Nat → Prop where
  | text {line other : Nat} {content : String} :
      InStep line other (.text content) (.text content) line other
  | newline {line other : Nat} : InStep line other .newline .newline (line + 1) (other + 1)
  | tag {line other height : Nat} {meaning : Tag} :
      InStep line other (.tag meaning line) (.tag meaning other) (line + height) (other + height)
  | comment {line other height otherHeight : Nat} {remark otherRemark : String} :
      InStep line other (.tag (.comment remark) line) (.tag (.comment otherRemark) other)
        (line + height) (other + otherHeight)

/-- Items of each of two sequences that are in step one after the other. -/
inductive InStep : Nat → Nat → List Item → List Item → Nat → Nat → Prop where
  | nil {line other : Nat} : InStep line other [] [] line other
  | cons {line other middle otherMiddle last otherLast : Nat} {item otherItem : Item}
      {rest others : List Item} (head : item.InStep line other otherItem middle otherMiddle)
      (following : InStep middle otherMiddle rest others last otherLast) :
      InStep line other (item :: rest) (otherItem :: others) last otherLast

/-- Items that are `InStep` are the same but for line and remark. -/
theorem Item.InStep.bare_eq {line other middle otherMiddle : Nat} {item otherItem : Item}
    (inStep : item.InStep line other otherItem middle otherMiddle) :
    item.bare = otherItem.bare := by
  cases inStep <;> rfl

/-- The tags of blocks take as many lines in both of two sequences that are `InStep`. -/
theorem Item.InStep.exists_height {line other middle otherMiddle number : Nat} {meaning : Tag}
    {otherItem : Item} (control : meaning.isControl = true)
    (inStep : (Item.tag meaning number).InStep line other otherItem middle otherMiddle) :
    number = line ∧ otherItem = .tag meaning other ∧
      ∃ height, middle = line + height ∧ otherMiddle = other + height := by
  cases inStep with
  | tag => exact ⟨rfl, rfl, _, rfl, rfl⟩
  | comment => cases control

namespace InStep

variable {line other last otherLast : Nat}

/-- Sequences that are `InStep` can be cut together. -/
theorem split {first second others : List Item}
    (inStep : InStep line other (first ++ second) others last otherLast) :
    ∃ otherFirst otherSecond middle otherMiddle, others = otherFirst ++ otherSecond ∧
      InStep line other first otherFirst middle otherMiddle ∧
      InStep middle otherMiddle second otherSecond last otherLast := by
  induction first generalizing line other others with
  | nil => exact ⟨[], others, line, other, rfl, .nil, inStep⟩
  | cons item first inductionHypothesis =>
    cases inStep with
    | cons head following =>
      obtain ⟨otherFirst, otherSecond, middle, otherMiddle, rfl, before, after⟩ :=
        inductionHypothesis following
      exact ⟨_ :: otherFirst, otherSecond, middle, otherMiddle, rfl, .cons head before, after⟩

/-- Sequences that are `InStep` go forward, by at least one line each where a line ends. Without
remarks they go forward by the same number of lines. -/
theorem advances {items others : List Item}
    (inStep : InStep line other items others last otherLast) :
    (line ≤ last ∧ other ≤ otherLast) ∧
      ((∃ item ∈ items, item.isNewline = true) → line < last ∧ other < otherLast) ∧
      ((∀ item ∈ items, item.isComment = false) → last + other = otherLast + line) := by
  induction inStep with
  | nil =>
    refine ⟨⟨Nat.le_refl _, Nat.le_refl _⟩, ?_, fun _ => Nat.add_comm _ _⟩
    rintro ⟨item, member, _⟩
    cases member
  | @cons line other middle otherMiddle last otherLast item otherItem rest others head _
      inductionHypothesis =>
    obtain ⟨forward, further, together⟩ := inductionHypothesis
    simp only [List.mem_cons, exists_eq_or_imp, forall_eq_or_imp]
    -- One item goes forward as the whole is said to; the rest does by induction.
    have step : (line ≤ middle ∧ other ≤ otherMiddle) ∧
        (item.isNewline = true → line < middle ∧ other < otherMiddle) ∧
        (item.isComment = false → middle + other = otherMiddle + line) := by
      cases head with
      | text | newline | tag => simp [Item.isNewline]; omega
      | comment => simp [Item.isNewline, Item.isComment, Tag.isComment]
    refine ⟨by omega, ?_, ?_⟩
    · rintro (ends | later)
      · have := step.2.1 ends
        omega
      · have := further later
        omega
    · rintro ⟨noRemark, noneLater⟩
      have := step.2.2 noRemark
      have := together noneLater
      omega

end InStep

namespace Layout

/-- Two lines hold the same items but for lines and remarks. They have the same marks unless there
is a remark on them. -/
structure AlikeLine (line other : List (Item × Bool)) : Prop where
  /-- The items are the same but for lines and remarks. -/
  sameItems : line.map (·.1.bare) = other.map (·.1.bare)
  /-- The marks are the same unless there is a remark. -/
  sameMarks : (∃ entry ∈ line, entry.1.isComment = true) ∨ line.map (·.2) = other.map (·.2)

/-- Alike lines that are put together are alike. -/
theorem AlikeLine.append {line other line₂ other₂ : List (Item × Bool)}
    (first : AlikeLine line other) (second : AlikeLine line₂ other₂) :
    AlikeLine (line ++ line₂) (other ++ other₂) where
  sameItems := by rw [List.map_append, List.map_append, first.sameItems, second.sameItems]
  sameMarks := by
    rcases first.sameMarks with ⟨entry, member, remark⟩ | firstMarks
    · exact Or.inl ⟨entry, List.mem_append_left _ member, remark⟩
    · rcases second.sameMarks with ⟨entry, member, remark⟩ | secondMarks
      · exact Or.inl ⟨entry, List.mem_append_right _ member, remark⟩
      · refine Or.inr ?_
        rw [List.map_append, List.map_append, firstMarks, secondMarks]

/-- A line on which there is a remark does not stand alone (`standsAlone`). -/
theorem standsAlone_of_comment {line : List (Item × Bool)} {entry : Item × Bool}
    (member : entry ∈ line) (remark : entry.1.isComment = true) : standsAlone line = false := by
  rw [standsAlone, Bool.and_eq_false_iff, List.all_eq_false]
  exact Or.inl ⟨entry, member, Bool.eq_false_iff.1 (Item.fitsStandalone_of_isComment remark)⟩

/-- Of lines that are `AlikeLine` the same is left by `keepMarked`. -/
theorem AlikeLine.keepMarked_eq {line other : List (Item × Bool)} (alike : AlikeLine line other) :
    (keepMarked line).map Item.bare = (keepMarked other).map Item.bare := by
  have sameDecision : standsAlone line = standsAlone other := by
    rcases alike.sameMarks with ⟨entry, member, remark⟩ | sameMarks
    · have there : entry.1.bare ∈ other.map (·.1.bare) :=
        alike.sameItems ▸ List.mem_map_of_mem member
      obtain ⟨otherEntry, otherMember, same⟩ := List.mem_map.1 there
      have otherRemark : otherEntry.1.isComment = true := by
        rw [← Item.isComment_bare, same, Item.isComment_bare, remark]
      rw [standsAlone_of_comment member remark, standsAlone_of_comment otherMember otherRemark]
    · have bareDecision : ∀ entries : List (Item × Bool),
          standsAlone (entries.map fun entry => (entry.1.bare, entry.2)) = standsAlone entries := by
        intro entries
        simp [standsAlone, List.all_map, List.any_map, Function.comp_def]
      rw [← bareDecision line, ← bareDecision other, ← List.zip_map', ← List.zip_map',
        alike.sameItems, sameMarks]
  have bareTags : ∀ items : List Item, (items.filter Item.isTag).map Item.bare =
      (items.map Item.bare).filter Item.isTag := by
    intro items
    simp [List.filter_map, Function.comp_def]
  have sameItems : (line.map (·.1)).map Item.bare = (other.map (·.1)).map Item.bare := by
    rw [List.map_map, List.map_map]
    exact alike.sameItems
  rw [keepMarked, keepMarked, sameDecision]
  split
  · rw [bareTags, bareTags, sameItems]
  · exact sameItems

/-- Marked items fall into lines that are alike. -/
inductive AlikeLines : List (Item × Bool) → List (Item × Bool) → Prop where
  | last {line other : List (Item × Bool)} (unbroken : ∀ entry ∈ line, entry.1.isNewline = false)
      (alike : AlikeLine line other) : AlikeLines line other
  | line {line other rest others : List (Item × Bool)}
      (unbroken : ∀ entry ∈ line, entry.1.isNewline = false) (alike : AlikeLine line other)
      (following : AlikeLines rest others) :
      AlikeLines (line ++ (.newline, false) :: rest) (other ++ (.newline, false) :: others)

namespace AlikeLines

/-- Where lines are alike (`AlikeLines`) the items are the same but for lines and remarks. -/
theorem sameItems {marked others : List (Item × Bool)} (alike : AlikeLines marked others) :
    marked.map (·.1.bare) = others.map (·.1.bare) := by
  induction alike with
  | last _ alike => exact alike.sameItems
  | line _ alike _ inductionHypothesis =>
    rw [List.map_append, List.map_append, List.map_cons, List.map_cons, alike.sameItems,
      inductionHypothesis]

/-- Lines that are `AlikeLines` may follow each other; the last of the one and the first of the
other may be parts of one line. -/
theorem append {first otherFirst second otherSecond : List (Item × Bool)}
    (alike : AlikeLines first otherFirst) (following : AlikeLines second otherSecond) :
    AlikeLines (first ++ second) (otherFirst ++ otherSecond) := by
  induction alike with
  | @last line other unbroken alike =>
    cases following with
    | last laterUnbroken laterAlike =>
      refine .last ?_ (alike.append laterAlike)
      exact List.forall_mem_append.2 ⟨unbroken, laterUnbroken⟩
    | line laterUnbroken laterAlike rest =>
      rw [← List.append_assoc, ← List.append_assoc]
      refine .line ?_ (alike.append laterAlike) rest
      exact List.forall_mem_append.2 ⟨unbroken, laterUnbroken⟩
  | line unbroken alike _ inductionHypothesis =>
    rw [List.append_assoc, List.append_assoc, List.cons_append, List.cons_append]
    exact .line unbroken alike inductionHypothesis

/-- The same item with the same mark may stand in front of `AlikeLines`. -/
theorem cons {item otherItem : Item} {mark : Bool} {rest others : List (Item × Bool)}
    (same : item.bare = otherItem.bare) (unmarked : item.isNewline = true → mark = false)
    (alike : AlikeLines rest others) :
    AlikeLines ((item, mark) :: rest) ((otherItem, mark) :: others) := by
  cases ends : item.isNewline with
  | false =>
    have single : AlikeLines [(item, mark)] [(otherItem, mark)] :=
      .last (by simp [ends]) ⟨by simp [same], Or.inr rfl⟩
    exact single.append alike
  | true =>
    obtain ⟨rfl, rfl⟩ : item = .newline ∧ otherItem = .newline := by
      cases item with
      | text | tag => cases ends
      | newline =>
        cases otherItem with
        | text | tag => cases same
        | newline => exact ⟨rfl, rfl⟩
    rw [unmarked rfl]
    exact .line (List.forall_mem_nil _) ⟨rfl, Or.inr rfl⟩ alike

/-- Where no line ends the same is left of a line. -/
theorem flatMap_linesAfter_of_unbroken {line : List (Item × Bool)}
    (unbroken : ∀ entry ∈ line, entry.1.isNewline = false) :
    (linesAfter (fun (item, _) => item.isNewline) line).flatMap keepMarked = keepMarked line := by
  by_cases present : line = []
  · rw [present]
    rfl
  · rw [linesAfter_of_unbroken unbroken present, List.flatMap_singleton]

/-- Of items that fall into `AlikeLines` the same is left by `keepMarked`. -/
theorem flatMap_keepMarked {marked others : List (Item × Bool)}
    (alike : AlikeLines marked others) :
    ((linesAfter (fun (item, _) => item.isNewline) marked).flatMap keepMarked).map Item.bare =
      ((linesAfter (fun (item, _) => item.isNewline) others).flatMap keepMarked).map
        Item.bare := by
  have otherUnbroken : ∀ {line other : List (Item × Bool)}, AlikeLine line other →
      (∀ entry ∈ line, entry.1.isNewline = false) →
        ∀ entry ∈ other, entry.1.isNewline = false := by
    intro line other alike unbroken entry member
    have there : entry.1.bare ∈ line.map (·.1.bare) :=
      alike.sameItems ▸ List.mem_map_of_mem member
    obtain ⟨lineEntry, lineMember, same⟩ := List.mem_map.1 there
    rw [← Item.isNewline_bare, ← same, Item.isNewline_bare, unbroken lineEntry lineMember]
  induction alike with
  | last unbroken alike =>
    rw [flatMap_linesAfter_of_unbroken unbroken,
      flatMap_linesAfter_of_unbroken (otherUnbroken alike unbroken), alike.keepMarked_eq]
  | line unbroken alike _ inductionHypothesis =>
    have ended : AlikeLine [(.newline, false)] [(.newline, false)] := ⟨rfl, Or.inr rfl⟩
    rw [linesAfter_line unbroken rfl, linesAfter_line (otherUnbroken alike unbroken) rfl,
      List.flatMap_cons, List.flatMap_cons, List.map_append, List.map_append,
      inductionHypothesis, (alike.append ended).keepMarked_eq]

end AlikeLines

/-- Items with marks on the tags that have their partner on another line. -/
def placeMarks (items : List Item) (tags : List BlockTag) : List (Item × Bool) :=
  (attach items tags).map fun attached => (attached.1, spansLines attached)

theorem map_fst_placeMarks (items : List Item) (tags : List BlockTag) :
    (placeMarks items tags).map (·.1) = items := by
  rw [placeMarks, List.map_map]
  exact map_fst_attach items tags

theorem placeMarks_other {item : Item} (notControl : item.isControl = false) (rest : List Item)
    (tags : List BlockTag) :
    placeMarks (item :: rest) tags = (item, false) :: placeMarks rest tags := by
  rw [placeMarks, attach_other notControl]
  rfl

/-- Both tags of a block are marked by `placeMarks` if they are on two lines. -/
theorem placeMarks_block {inner : List Item} {innerTags : List BlockTag}
    (paired : Paired inner innerTags) (kind : BlockKind) (name closingName : String)
    (firstLine lastLine : Nat) (rest : List Item) (tags : List BlockTag) :
    placeMarks
        (.tag (.openBlock kind name) firstLine ::
          (inner ++ .tag (.closeBlock closingName) lastLine :: rest))
        (.opening kind name firstLine lastLine ::
          (innerTags ++ .closing closingName firstLine lastLine :: tags)) =
      (.tag (.openBlock kind name) firstLine, firstLine != lastLine) ::
        (placeMarks inner innerTags ++
          (.tag (.closeBlock closingName) lastLine, firstLine != lastLine) ::
            placeMarks rest tags) := by
  have closingMark : spansLines (.tag (.closeBlock closingName) lastLine,
      some (.closing closingName firstLine lastLine)) = (firstLine != lastLine) := bne_comm
  rw [placeMarks, attach_block paired, List.map_cons, List.map_append, List.map_cons, closingMark]
  rfl

/-- What `elide` leaves of paired items is told by their marks, `placeMarks`. -/
theorem elide_eq_flatMap_placeMarks {items : List Item} {tags : List BlockTag}
    (paired : Paired items tags) :
    elide items =
      (linesAfter (fun (item, _) => item.isNewline) (placeMarks items tags)).flatMap
        keepMarked := by
  rw [elide_eq_flatMap, marked_eq_of_paired paired, placeMarks]

/-- The two ends of a block are on different lines in both of two sequences that are `InStep` or in
none, unless there is a remark between them and no end of a line. -/
theorem bne_eq_or_comment {line other last otherLast height : Nat} {inner others : List Item}
    (inStep : InStep (line + height) (other + height) inner others last otherLast) :
    (line != last) = (other != otherLast) ∨
      (∃ item ∈ inner, item.isComment = true) ∧ ∀ item ∈ inner, item.isNewline = false := by
  obtain ⟨_, further, together⟩ := inStep.advances
  by_cases ended : ∃ item ∈ inner, item.isNewline = true
  · have := further ended
    refine Or.inl ?_
    rw [bne_iff_ne.2 (by omega), bne_iff_ne.2 (by omega)]
  · by_cases remark : ∃ item ∈ inner, item.isComment = true
    · exact Or.inr ⟨remark, by simpa using ended⟩
    · have := together (by simpa using remark)
      refine Or.inl ?_
      rw [Bool.eq_iff_iff, bne_iff_ne, bne_iff_ne]
      omega

end Layout

open Layout in
/-- Items that are `InStep` nest alike, and fall into `AlikeLines`. -/
theorem Paired.exists_alike {items : List Item} {tags : List BlockTag} (paired : Paired items tags)
    {others : List Item} {line other last otherLast : Nat}
    (inStep : InStep line other items others last otherLast) :
    ∃ otherTags, Paired others otherTags ∧
      AlikeLines (placeMarks items tags) (placeMarks others otherTags) := by
  induction paired generalizing others line other last otherLast with
  | nil =>
    cases inStep
    exact ⟨[], .nil, .last (by simp [placeMarks, attach]) ⟨rfl, Or.inr rfl⟩⟩
  | @other item rest tags notControl _ inductionHypothesis =>
    cases inStep with
    | @cons _ _ middle otherMiddle _ _ _ otherItem _ others head following =>
      obtain ⟨otherTags, otherPaired, alike⟩ := inductionHypothesis following
      have otherNotControl : otherItem.isControl = false := by
        rw [← Item.isControl_bare, ← head.bare_eq, Item.isControl_bare, notControl]
      refine ⟨otherTags, .other otherNotControl otherPaired, ?_⟩
      rw [placeMarks_other notControl, placeMarks_other otherNotControl]
      exact .cons head.bare_eq (fun _ => rfl) alike
  | @block kind name closingName firstLine lastLine inner rest innerTags tags body _
      bodyHypothesis followingHypothesis =>
    cases inStep with
    | cons opening following =>
    obtain ⟨rfl, rfl, height, rfl, rfl⟩ := opening.exists_height rfl
    obtain ⟨otherInner, otherTail, middle, otherMiddle, rfl, inside, after⟩ := following.split
    cases after with
    | cons closing afterwards =>
    obtain ⟨rfl, rfl, _⟩ := closing.exists_height rfl
    obtain ⟨otherInnerTags, otherBody, alikeInside⟩ := bodyHypothesis inside
    obtain ⟨otherTags, otherFollowing, alikeAfter⟩ := followingHypothesis afterwards
    refine ⟨_, .block otherBody otherFollowing, ?_⟩
    rw [placeMarks_block body, placeMarks_block otherBody]
    rcases bne_eq_or_comment inside with sameMark | ⟨⟨remark, present, isComment⟩, unbroken⟩
    · rw [sameMark]
      refine .cons rfl ?_ (alikeInside.append (.cons rfl ?_ alikeAfter))
      · exact Bool.false_ne_true.elim
      · exact Bool.false_ne_true.elim
    · -- The tags of the block, the remark and all else that is between them are on one line.
      have onOneLine : AlikeLines
          ((.tag (.openBlock kind name) firstLine, firstLine != lastLine) ::
            (placeMarks inner innerTags ++
              [(.tag (.closeBlock closingName) lastLine, firstLine != lastLine)]))
          ((.tag (.openBlock kind name) other, other != otherMiddle) ::
            (placeMarks otherInner otherInnerTags ++
              [(.tag (.closeBlock closingName) otherMiddle, other != otherMiddle)])) := by
        have marked : remark ∈ (placeMarks inner innerTags).map (·.1) := by
          rwa [map_fst_placeMarks]
        obtain ⟨entry, member, rfl⟩ := List.mem_map.1 marked
        refine .last ?_ ⟨?_, Or.inl ⟨entry, by simp [member], isComment⟩⟩
        · have insideUnbroken : ∀ entry ∈ placeMarks inner innerTags,
              entry.1.isNewline = false := by
            rwa [← map_fst_placeMarks inner innerTags, List.forall_mem_map] at unbroken
          rw [List.forall_mem_cons, List.forall_mem_append, List.forall_mem_singleton]
          exact ⟨rfl, insideUnbroken, rfl⟩
        · rw [List.map_cons, List.map_cons, List.map_append, List.map_append,
            alikeInside.sameItems]
          rfl
      simpa using onOneLine.append alikeAfter

end Mustache
