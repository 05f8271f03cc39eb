import Mustache.Proofs.Template.Pairing

/-!
# Lines that stand alone

Leaving out the blanks of the lines that stand alone works line by line once it is known which
tags have their partner on another line. `Layout.marked` marks these tags, `elide_eq_flatMap`
takes the positions out of `Layout.elide`, and `elide_append` concludes that where the tags
before a line end nest, the lines after it are laid out as if they stood by themselves.
-/

namespace Mustache

/-- Whether an item is the end of a line. -/
def Item.isNewline : Item → Bool
  | .newline => true
  | _ => false

namespace Layout

/-- A sequence cut after each element that ends a line. -/
def linesAfter {α : Type} (endsLine : α → Bool) : List α → List (List α)
  | [] => []
  | head :: rest =>
    if endsLine head then [head] :: linesAfter endsLine rest
    else
      match linesAfter endsLine rest with
      | [] => [[head]]
      | line :: following => (head :: line) :: following

/-- The lines that `linesAfter` makes of changed elements are changed lines. -/
theorem linesAfter_map {α β : Type} (change : α → β) (endsLine : β → Bool) (elements : List α) :
    linesAfter endsLine (elements.map change) =
      (linesAfter (fun element => endsLine (change element)) elements).map (List.map change) := by
  induction elements with
  | nil => rfl
  | cons head rest inductionHypothesis =>
    rw [List.map_cons, linesAfter, linesAfter, inductionHypothesis]
    split
    · rfl
    · cases linesAfter (fun element => endsLine (change element)) rest <;> rfl

/-- The lines that `linesAfter` makes, put one after the other, are the whole sequence. -/
theorem flatten_linesAfter {α : Type} (endsLine : α → Bool) (elements : List α) :
    (linesAfter endsLine elements).flatten = elements := by
  induction elements with
  | nil => rfl
  | cons head rest inductionHypothesis =>
    rw [linesAfter]
    split
    · rw [List.flatten_cons, inductionHypothesis, List.singleton_append]
    · cases lines : linesAfter endsLine rest with
      | nil =>
        rw [lines] at inductionHypothesis
        rw [← inductionHypothesis]
        rfl
      | cons line following =>
        rw [lines] at inductionHypothesis
        rw [← inductionHypothesis]
        rfl

/-- A sequence that is empty or ends with the end of a line. -/
def EndsLine {α : Type} (endsLine : α → Bool) (elements : List α) : Prop :=
  elements.getLast?.all endsLine = true

/-- What a sequence ends with ends with the end of a line if the sequence does. -/
theorem EndsLine.right {α : Type} {endsLine : α → Bool} {before after : List α}
    (ended : EndsLine endsLine (before ++ after)) : EndsLine endsLine after := by
  cases after with
  | nil => rfl
  | cons head rest =>
    rw [EndsLine, List.getLast?_append, List.getLast?_cons, Option.some_or] at ended
    rw [EndsLine, List.getLast?_cons]
    exact ended

theorem EndsLine.of_cons {α : Type} {endsLine : α → Bool} {head : α} {rest : List α}
    (ended : EndsLine endsLine (head :: rest)) : EndsLine endsLine rest :=
  EndsLine.right (List.singleton_append ▸ ended)

theorem linesAfter_ne_nil {α : Type} (endsLine : α → Bool) {elements : List α}
    (present : elements ≠ []) : linesAfter endsLine elements ≠ [] := by
  intro none
  have whole := flatten_linesAfter endsLine elements
  rw [none] at whole
  exact present whole.symm

/-- After the end of a line (`EndsLine`) new lines begin. -/
theorem linesAfter_append {α : Type} {endsLine : α → Bool} {first : List α}
    (ended : EndsLine endsLine first) (second : List α) :
    linesAfter endsLine (first ++ second) =
      linesAfter endsLine first ++ linesAfter endsLine second := by
  induction first with
  | nil => rfl
  | cons head rest inductionHypothesis =>
    rw [List.cons_append, linesAfter, linesAfter]
    cases rest with
    | nil =>
      have headEnds : endsLine head = true := by simpa [EndsLine] using ended
      rw [if_pos headEnds, if_pos headEnds]
      rfl
    | cons next others =>
      have following := inductionHypothesis (by simpa [EndsLine] using ended)
      rw [following]
      split
      · rfl
      · cases lines : linesAfter endsLine (next :: others) with
        | nil => exact absurd lines (linesAfter_ne_nil endsLine (List.cons_ne_nil _ _))
        | cons line lines => rfl

/-- The first line that `linesAfter` makes is what stands up to the first end of a line. -/
theorem linesAfter_line {α : Type} {endsLine : α → Bool} {line : List α} {last : α}
    (unbroken : ∀ element ∈ line, endsLine element = false) (ends : endsLine last = true)
    (rest : List α) :
    linesAfter endsLine (line ++ last :: rest) = (line ++ [last]) :: linesAfter endsLine rest := by
  induction line with
  | nil => rw [List.nil_append, linesAfter, if_pos ends, List.nil_append]
  | cons head others inductionHypothesis =>
    obtain ⟨headGoesOn, othersGoOn⟩ := List.forall_mem_cons.1 unbroken
    rw [List.cons_append, linesAfter, headGoesOn, inductionHypothesis othersGoOn]
    rfl

/-- What no line end is in is one line by `linesAfter`. -/
theorem linesAfter_of_unbroken {α : Type} {endsLine : α → Bool} {line : List α}
    (unbroken : ∀ element ∈ line, endsLine element = false) (present : line ≠ []) :
    linesAfter endsLine line = [line] := by
  induction line with
  | nil => exact absurd rfl present
  | cons head others inductionHypothesis =>
    obtain ⟨headGoesOn, othersGoOn⟩ := List.forall_mem_cons.1 unbroken
    rw [linesAfter, headGoesOn]
    cases others with
    | nil => rfl
    | cons next others =>
      rw [inductionHypothesis othersGoOn (List.cons_ne_nil _ _)]
      rfl

/-- Each item, and whether it is a tag with its partner on another line (`spanningFrom`). -/
def marked (items : List Item) : List (Item × Bool) :=
  items.zipIdx.map fun (item, index) => (item, (spanning items).contains index)

/-- Whether a line of marked items stands alone. -/
def standsAlone (line : List (Item × Bool)) : Bool :=
  line.all (fun (item, _) => item.fitsStandalone) &&
    line.any fun (item, spans) => item.isTag && spans

/-- What is left of a line of marked items. -/
def keepMarked (line : List (Item × Bool)) : List Item :=
  if standsAlone line then (line.map (·.1)).filter Item.isTag else line.map (·.1)

theorem splitLines_eq (items : List (Item × Nat)) :
    splitLines items = linesAfter (fun (item, _) => item.isNewline) items := by
  induction items with
  | nil => rfl
  | cons head rest inductionHypothesis =>
    obtain ⟨item, position⟩ := head
    cases item with
    | newline =>
      rw [splitLines, linesAfter, inductionHypothesis]
      rfl
    | text | tag =>
      rw [linesAfter, ← inductionHypothesis]
      simp only [splitLines, Item.isNewline, Bool.false_eq_true, if_false]
      cases splitLines rest <;> rfl

/-- To `elide` lines is to keep from each line of `marked` items what is left of it. -/
theorem elide_eq_flatMap (items : List Item) :
    elide items =
      (linesAfter (fun (item, _) => item.isNewline) (marked items)).flatMap keepMarked := by
  rw [elide, marked, linesAfter_map, List.flatMap_map, splitLines_eq]
  congr 1
  funext line
  simp only [keepLine, keepMarked, isStandalone, standsAlone, List.all_map, List.any_map,
    List.map_map]
  rfl

/-- Items that are `marked` are the items they were. -/
theorem map_fst_marked (items : List Item) : (marked items).map (·.1) = items := by
  rw [marked, List.map_map]
  exact List.zipIdx_map_fst 0 items

/-- The marks of `Paired` items are on the tags with their partner on another line. -/
theorem marked_eq_of_paired {items : List Item} {tags : List BlockTag}
    (paired : Paired items tags) :
    marked items = (attach items tags).map fun attached => (attached.1, spansLines attached) := by
  have attachedLength : (attach items tags).length = items.length := by
    rw [← List.length_map (·.1), map_fst_attach]
  apply List.ext_getElem?
  intro index
  rw [marked, List.getElem?_map, List.getElem?_map, List.getElem?_zipIdx, Nat.zero_add]
  have sameItem : (attach items tags)[index]?.map (·.1) = items[index]? := by
    rw [← List.getElem?_map, map_fst_attach]
  have found := paired.mem_spanningFrom 0 [] [] index
  rw [List.append_nil, ← Nat.zero_add index, add_mem_spanningPositions, Nat.zero_add] at found
  cases entry : (attach items tags)[index]? with
  | none =>
    rw [entry] at sameItem
    rw [← sameItem]
    rfl
  | some attached =>
    rw [entry] at sameItem found
    rw [← sameItem]
    simp only [Option.map_some, Option.some.injEq, Prod.mk.injEq, true_and]
    rw [Bool.eq_iff_iff, List.contains_iff_mem, spanning, found]
    simp [spanningFrom]

/-- Counting positions from further on moves what `spanningFrom` finds as far. -/
theorem spanningFrom_add (position offset : Nat) (openTags : List (Nat × Nat))
    (items : List Item) :
    spanningFrom (position + offset) (openTags.map fun (start, line) => (start + offset, line))
        items =
      (spanningFrom position openTags items).map (· + offset) := by
  induction items generalizing position openTags with
  | nil => rfl
  | cons item rest inductionHypothesis =>
    have following := inductionHypothesis (position + 1)
    rw [Nat.add_right_comm] at following
    cases item with
    | text | newline => exact following openTags
    | tag meaning line =>
      cases meaning with
      | openBlock kind name => exact following ((position, line) :: openTags)
      | closeBlock name =>
        cases openTags with
        | nil => exact following []
        | cons opened enclosing =>
          obtain ⟨start, startLine⟩ := opened
          simp only [spanningFrom, List.map_cons]
          split
          · rw [List.map_cons, List.map_cons, following]
          · rw [following]
      | partialCall | interpolation | comment | pragma | empty => exact following openTags

/-- Items whose block tags nest (`Paired`) are marked as if nothing came after them, and what comes
after them is marked as if they were not there. -/
theorem marked_append {first second : List Item} {tags : List BlockTag}
    (paired : Paired first tags) : marked (first ++ second) = marked first ++ marked second := by
  have later : spanningFrom first.length [] second = (spanning second).map (· + first.length) := by
    have shifted := spanningFrom_add 0 first.length [] second
    rwa [Nat.zero_add] at shifted
  have found : ∀ index, index ∈ spanning (first ++ second) ↔
      index ∈ spanningPositions 0 (attach first tags) ∨
        ∃ position ∈ spanning second, position + first.length = index := by
    intro index
    rw [spanning, paired.mem_spanningFrom, Nat.zero_add, later, List.mem_map]
  have foundFirst : ∀ index, index ∈ spanning first ↔
      index ∈ spanningPositions 0 (attach first tags) := by
    intro index
    have alone := paired.mem_spanningFrom 0 [] [] index
    rw [List.append_nil] at alone
    simpa [spanning, spanningFrom] using alone
  have below : ∀ index, index ∈ spanningPositions 0 (attach first tags) →
      index < first.length := by
    intro index member
    rw [← Nat.zero_add index, add_mem_spanningPositions] at member
    have attachedLength : (attach first tags).length = first.length := by
      rw [← List.length_map (·.1), map_fst_attach]
    rw [← attachedLength]
    cases entry : (attach first tags)[index]? with
    | none => simp [entry] at member
    | some attached => exact (List.getElem?_eq_some_iff.1 entry).1
  rw [marked, marked, marked, List.zipIdx_append, List.map_append, Nat.zero_add]
  congr 1
  · apply List.map_congr_left
    rintro ⟨item, index⟩ member
    have bound : index < first.length := by
      have := List.snd_lt_of_mem_zipIdx member
      omega
    rw [Prod.mk.injEq, Bool.eq_iff_iff, List.contains_iff_mem, List.contains_iff_mem, found,
      foundFirst]
    refine ⟨rfl, or_iff_left ?_⟩
    rintro ⟨position, _, rfl⟩
    omega
  · rw [List.zipIdx_eq_map_add, List.map_map]
    apply List.map_congr_left
    rintro ⟨item, index⟩ _
    simp only [Function.comp_apply, Prod.mk.injEq, true_and]
    rw [Bool.eq_iff_iff, List.contains_iff_mem, List.contains_iff_mem, found]
    constructor
    · rintro (member | ⟨position, member, same⟩)
      · have := below _ member
        omega
      · rwa [show index = position by omega]
    · intro member
      exact Or.inr ⟨index, member, Nat.add_comm _ _⟩

/-- What `keepMarked` leaves of a line has all that is seen of its tags. -/
theorem filterMap_keepMarked {β : Type} {view : Item → Option β}
    (blind : ∀ item, item.isTag = false → view item = none) (line : List (Item × Bool)) :
    (keepMarked line).filterMap view = (line.map (·.1)).filterMap view := by
  unfold keepMarked
  split
  · rw [List.filterMap_filter]
    congr 1
    funext item
    cases tag : item.isTag with
    | false => simp [blind item tag]
    | true => simp
  · rfl

/-- To `elide` lines leaves all that is seen of tags. -/
theorem filterMap_elide {β : Type} {view : Item → Option β}
    (blind : ∀ item, item.isTag = false → view item = none) (items : List Item) :
    (elide items).filterMap view = items.filterMap view := by
  rw [elide_eq_flatMap, List.filterMap_flatMap]
  simp only [filterMap_keepMarked blind]
  rw [← List.filterMap_flatMap, List.flatMap_def, ← List.map_flatten, flatten_linesAfter,
    map_fst_marked]

/-- What is no tag opens and closes no block. -/
theorem guard_isControl_of_isTag_eq_false (item : Item) (noTag : item.isTag = false) :
    Option.guard Item.isControl item = none := by
  cases item with
  | text | newline => rfl
  | tag => cases noTag

/-- To `elide` lines leaves all block tags. -/
theorem filter_elide (items : List Item) :
    (elide items).filter Item.isControl = items.filter Item.isControl := by
  have seen := filterMap_elide guard_isControl_of_isTag_eq_false items
  rwa [List.filterMap_eq_filter] at seen

/-- Items whose block tags nest and which end with a line are elided by `elide` as if nothing came
after them, and what comes after them is elided as if they were not there. -/
theorem elide_append {first second : List Item} {tags : List BlockTag}
    (paired : Paired first tags) (ended : EndsLine Item.isNewline first) :
    elide (first ++ second) = elide first ++ elide second := by
  have markedEnded : EndsLine (fun (item, _) => item.isNewline) (marked first) := by
    unfold EndsLine at ended ⊢
    rwa [← map_fst_marked first, List.getLast?_map, Option.all_map] at ended
  rw [elide_eq_flatMap, elide_eq_flatMap, elide_eq_flatMap, marked_append paired,
    linesAfter_append markedEnded, List.flatMap_append]

end Layout

/-- Tags that are `Paired` once lines are elided were paired before. -/
theorem Paired.of_elide {items : List Item} {tags : List BlockTag}
    (paired : Paired (Layout.elide items) tags) : Paired items tags :=
  paired.of_filter_eq (Layout.filter_elide items).symm

end Mustache
