import Mathlib.Data.List.Forall2
import Mustache.Proofs.Template.CanonicalTokens
import Mustache.Proofs.Template.Flattening

/-!
# Carriage returns before line ends

A text in which every line ends with a carriage return and a newline has the tokens of the text
with newlines alone, but for the carriage returns, which are literal text at the ends of the lines.
A carriage return is no blank. So a line with a line end does not stand alone then, whatever its
tags are, and only the last line, if it has no line end, is judged as before.
-/

namespace Mustache

namespace Text

/-- Characters with a carriage return in front of each line end. -/
def returned (text : List Char) : List Char :=
  text.flatMap fun character => if character = '\n' then ['\r', '\n'] else [character]

/-- A text with a carriage return in front of each line end. -/
def withReturns (text : String) : String :=
  String.ofList (returned text.toList)

theorem returned_append (first second : List Char) :
    returned (first ++ second) = returned first ++ returned second :=
  List.flatMap_append

theorem returned_newline (text : List Char) :
    returned ('\n' :: text) = '\r' :: '\n' :: returned text := rfl

/-- Where no line ends `returned` adds nothing. -/
theorem returned_of_unbroken {text : List Char} (unbroken : '\n' ∉ text) :
    returned text = text := by
  induction text with
  | nil => rfl
  | cons character rest inductionHypothesis =>
    rw [List.mem_cons, not_or] at unbroken
    obtain ⟨goesOn, restUnbroken⟩ := unbroken
    rw [returned, List.flatMap_cons, if_neg (Ne.symm goesOn), ← returned,
      inductionHypothesis restUnbroken, List.singleton_append]

/-- There are as many line ends in a `returned` text as before. -/
theorem count_returned (text : List Char) : (returned text).count '\n' = text.count '\n' := by
  induction text with
  | nil => rfl
  | cons character rest inductionHypothesis =>
    by_cases ends : character = '\n'
    · rw [ends, returned_newline]
      simp [inductionHypothesis]
    · rw [returned, List.flatMap_cons, if_neg ends, ← returned, List.singleton_append]
      simp [List.count_cons, inductionHypothesis]

end Text

/-- There is no carriage return in a marker, which holds no white space. -/
theorem IsMarker.return_notMem {marker : String} (isMarker : IsMarker marker) :
    '\r' ∉ marker.toList := by
  intro member
  have visible := isMarker.2 '\r' member
  revert visible
  decide

/-- A marker that is not in a run is not in the run with a carriage return after it either. -/
theorem IsMarker.notHeld_append_return {marker : String} (isMarker : IsMarker marker)
    {run : List Char} (notHeld : ¬ marker.toList <:+: run) :
    ¬ marker.toList <:+: run ++ ['\r'] := by
  rw [List.infix_concat_iff, List.suffix_concat_iff]
  rintro ((nothing | ⟨front, ends, _⟩) | held)
  · exact isMarker.1 nothing
  · exact isMarker.return_notMem (ends ▸ List.mem_append_right _ (List.mem_singleton.2 rfl))
  · exact notHeld held

/-- An item that ends no line and has no line end in it. -/
def Item.Unbroken : Item → Prop
  | .text content => '\n' ∉ content.toList
  | .newline => False
  | .tag _ _ => True

/-- Items, and the same with a carriage return before each line end: at the end of the text that
stands there, or as a text of its own. -/
inductive Returned : List Item → List Item → Prop where
  | nil : Returned [] []
  | text {content : String} {rest others : List Item} (unbroken : '\n' ∉ content.toList)
      (following : Returned rest others) :
      Returned (.text content :: rest) (.text content :: others)
  | tag {meaning : Tag} {line : Nat} {rest others : List Item} (following : Returned rest others) :
      Returned (.tag meaning line :: rest) (.tag meaning line :: others)
  | newline {rest others : List Item} (following : Returned rest others) :
      Returned (.newline :: rest) (.text "\r" :: .newline :: others)
  | textNewline {content : String} {rest others : List Item} (unbroken : '\n' ∉ content.toList)
      (following : Returned rest others) :
      Returned (.text content :: .newline :: rest)
        (.text (content ++ "\r") :: .newline :: others)

namespace Returned

/-- All that is seen of tags stays the same in `Returned` items. -/
theorem filterMap_eq {β : Type} {view : Item → Option β}
    (blind : ∀ item, item.isTag = false → view item = none) {items others : List Item}
    (returned : Returned items others) : others.filterMap view = items.filterMap view := by
  have textUnseen : ∀ content, view (.text content) = none := fun _ => blind _ rfl
  have newlineUnseen : view .newline = none := blind _ rfl
  induction returned with
  | nil => rfl
  | text _ _ inductionHypothesis => simp [textUnseen, inductionHypothesis]
  | tag _ inductionHypothesis => simp only [List.filterMap_cons, inductionHypothesis]
  | newline _ inductionHypothesis | textNewline _ _ inductionHypothesis =>
    simp [textUnseen, newlineUnseen, inductionHypothesis]

/-- No line ends within a text of `Returned` items. -/
theorem unbroken {items others : List Item} (returned : Returned items others) {content : String}
    (member : .text content ∈ items) : '\n' ∉ content.toList := by
  induction returned with
  | nil => cases member
  | text unbroken _ inductionHypothesis =>
    rcases List.mem_cons.1 member with same | later
    · cases same
      exact unbroken
    · exact inductionHypothesis later
  | tag _ inductionHypothesis | newline _ inductionHypothesis =>
    exact inductionHypothesis ((List.mem_cons.1 member).resolve_left (by simp))
  | textNewline unbroken _ inductionHypothesis =>
    rcases List.mem_cons.1 member with same | later
    · cases same
      exact unbroken
    · exact inductionHypothesis ((List.mem_cons.1 later).resolve_left (by simp))

/-- Items in which no line ends are `Returned` as they are. -/
theorem refl {items : List Item} (unbroken : ∀ item ∈ items, item.Unbroken) :
    Returned items items := by
  induction items with
  | nil => exact .nil
  | cons item rest inductionHypothesis =>
    obtain ⟨itemUnbroken, restUnbroken⟩ := List.forall_mem_cons.1 unbroken
    have following := inductionHypothesis restUnbroken
    cases item with
    | text => exact .text itemUnbroken following
    | newline => exact itemUnbroken.elim
    | tag => exact .tag following

/-- Items are `Returned` part by part. -/
theorem append {first otherFirst second otherSecond : List Item}
    (returned : Returned first otherFirst) (following : Returned second otherSecond) :
    Returned (first ++ second) (otherFirst ++ otherSecond) := by
  induction returned with
  | nil => exact following
  | text unbroken _ inductionHypothesis => exact .text unbroken inductionHypothesis
  | tag _ inductionHypothesis => exact .tag inductionHypothesis
  | newline _ inductionHypothesis => exact .newline inductionHypothesis
  | textNewline unbroken _ inductionHypothesis => exact .textNewline unbroken inductionHypothesis

end Returned

namespace Token

variable {delimiters : Delimiters} {line : Nat}

/-- A run with a carriage return fits in front of a line end in a `Canonical` sequence. -/
theorem canonical_return {content : String} {rest : List Token}
    (unbroken : '\n' ∉ content.toList) (notHeld : ¬ delimiters.opening.toList <:+: content.toList)
    (canonical : Canonical delimiters (line + 1) rest) :
    Canonical delimiters line (.text (content ++ "\r") :: .newline :: rest) := by
  refine canonical_text_iff.2 ⟨⟨?_, ?_, by simp, ?_⟩, canonical_newline_iff.2 canonical⟩
  · simp [String.append_eq_empty_iff]
  · simp [unbroken]
  · rw [RunsUpTo, String.toList_append]
    exact delimiters.opening_isMarker.notHeld_append_return notHeld

/-- Text that `Fits` in front of tokens fits in front of them with carriage returns, unless they
begin with a line end. -/
theorem Fits.text_of_returned {content : String} {rest others : List Token}
    (fits : Fits delimiters line [] (.text content) rest)
    (goesOn : rest.head? ≠ some .newline)
    (returned : Returned (rest.map Item.ofToken) (others.map Item.ofToken)) :
    Fits delimiters line [] (.text content) others := by
  obtain ⟨some, unbroken, noText, runsUpTo⟩ := fits
  cases rest with
  | nil =>
    rw [List.map_nil] at returned
    generalize same : others.map Item.ofToken = items at returned
    cases returned
    rw [List.map_eq_nil_iff.1 same]
    exact ⟨some, unbroken, noText, runsUpTo⟩
  | cons token rest =>
    cases token with
    | text other => exact absurd rfl (noText other)
    | newline => exact absurd rfl goesOn
    | tag body number =>
      rw [List.map_cons, Item.ofToken] at returned
      generalize same : others.map Item.ofToken = items at returned
      cases returned with
      | tag following =>
        obtain ⟨other, later, rfl, isTag, _⟩ := List.map_eq_cons_iff.1 same
        cases other with
        | text | newline => cases isTag
        | tag => exact ⟨some, unbroken, by simp, runsUpTo⟩

/-- Where no line ends in a tag of a `Canonical` sequence, the text with carriage returns has the
same tokens but for these. -/
theorem Canonical.exists_returned {line : Nat} {tokens : List Token}
    (canonical : Canonical delimiters line tokens)
    (tagsUnbroken : ∀ body number, Token.tag body number ∈ tokens → '\n' ∉ body.toList) :
    ∃ others, Canonical delimiters line others ∧
      (writeAll delimiters others).toList = Text.returned (writeAll delimiters tokens).toList ∧
      Returned (tokens.map Item.ofToken) (others.map Item.ofToken) := by
  have later : ∀ {token rest}, tokens = token :: rest →
      ∀ body number, Token.tag body number ∈ rest → '\n' ∉ body.toList :=
    fun split body number member =>
      tagsUnbroken body number (split ▸ List.mem_cons_of_mem _ member)
  match tokens with
  | [] => exact ⟨[], canonical, rfl, .nil⟩
  | .newline :: rest =>
    obtain ⟨others, otherCanonical, written, returned⟩ :=
      Canonical.exists_returned (canonical_newline_iff.1 canonical) (later rfl)
    refine ⟨.text ("" ++ "\r") :: .newline :: others, ?_, ?_, .newline returned⟩
    · refine canonical_return (by simp) ?_ otherCanonical
      exact fun held => delimiters.opening_isMarker.1 (List.infix_nil.1 held)
    · simp [write, written, Text.returned_newline]
  | .tag body number :: rest =>
    obtain ⟨rfl, first, afterTag⟩ := canonical_tag_iff.1 canonical
    obtain ⟨others, otherCanonical, written, returned⟩ :=
      Canonical.exists_returned afterTag (later rfl)
    refine ⟨.tag body number :: others, canonical_tag_iff.2 ⟨rfl, first, otherCanonical⟩, ?_,
      .tag returned⟩
    have unbroken : '\n' ∉ ((Token.tag body number).write delimiters).toList := by
      rw [← List.count_eq_zero, count_write_tag, List.count_eq_zero]
      exact tagsUnbroken body number List.mem_cons_self
    rw [toList_writeAll_cons, toList_writeAll_cons, Text.returned_append,
      Text.returned_of_unbroken unbroken, written]
  | .text content :: rest =>
    obtain ⟨fits, following⟩ := canonical_text_iff.1 canonical
    obtain ⟨_, unbroken, _, runsUpTo⟩ := id fits
    by_cases ends : rest.head? = some .newline
    · obtain ⟨afterLine, rfl⟩ := List.head?_eq_some_iff.1 ends
      obtain ⟨others, otherCanonical, written, returned⟩ :=
        Canonical.exists_returned (canonical_newline_iff.1 following)
          fun body number member => later rfl body number (List.mem_cons_of_mem _ member)
      refine ⟨.text (content ++ "\r") :: .newline :: others,
        canonical_return unbroken runsUpTo otherCanonical, ?_, .textNewline unbroken returned⟩
      simp [write, written, Text.returned_append, Text.returned_of_unbroken unbroken,
        Text.returned_newline]
    · obtain ⟨others, otherCanonical, written, returned⟩ :=
        Canonical.exists_returned following (later rfl)
      refine ⟨.text content :: others,
        canonical_text_iff.2 ⟨fits.text_of_returned ends returned, otherCanonical⟩, ?_,
        .text unbroken returned⟩
      rw [toList_writeAll_cons, toList_writeAll_cons, Text.returned_append, written, write,
        Text.returned_of_unbroken unbroken]
  termination_by tokens.length

end Token

namespace Layout

/-- An element in front of the first of some lines. -/
def consLine {α : Type} (head : α) : List (List α) → List (List α)
  | [] => [[head]]
  | line :: following => (head :: line) :: following

/-- What ends no line joins the line that follows in `linesAfter`. -/
theorem linesAfter_cons {α : Type} {endsLine : α → Bool} {head : α}
    (goesOn : endsLine head = false) (rest : List α) :
    linesAfter endsLine (head :: rest) = consLine head (linesAfter endsLine rest) := by
  rw [linesAfter, goesOn]
  cases linesAfter endsLine rest <;> rfl

/-- A line, and the same line with a carriage return before its end if it has one. -/
inductive LineReturned :
    List (Item × Option BlockTag) → List (Item × Option BlockTag) → Prop where
  | last {line : List (Item × Option BlockTag)}
      (unbroken : ∀ attached ∈ line, attached.1.Unbroken) : LineReturned line line
  | ended {line other : List (Item × Option BlockTag)}
      (ends : ∃ attached ∈ line, attached.1 = .newline)
      (returned : Returned (line.map (·.1)) (other.map (·.1)))
      (withReturn : ∃ content tag, (.text content, tag) ∈ other ∧ '\r' ∈ content.toList) :
      LineReturned line other

/-- An item that ends no line may stand in front of a line that is `LineReturned`. -/
theorem LineReturned.cons {attached : Item × Option BlockTag}
    {line other : List (Item × Option BlockTag)} (unbroken : attached.1.Unbroken)
    (returned : LineReturned line other) :
    LineReturned (attached :: line) (attached :: other) := by
  cases returned with
  | last lineUnbroken => exact .last (List.forall_mem_cons.2 ⟨unbroken, lineUnbroken⟩)
  | ended ends returned withReturn =>
    obtain ⟨ending, member, isEnd⟩ := ends
    obtain ⟨content, tag, found, isReturn⟩ := withReturn
    refine .ended ⟨ending, List.mem_cons_of_mem _ member, isEnd⟩ ?_
      ⟨content, tag, List.mem_cons_of_mem _ found, isReturn⟩
    obtain ⟨item, attachedTag⟩ := attached
    cases item with
    | text => exact .text unbroken returned
    | newline => exact unbroken.elim
    | tag => exact .tag returned

/-- An item that ends no line may be put by `consLine` in front of lines that are `LineReturned`. -/
theorem forall₂_lineReturned_consLine {attached : Item × Option BlockTag}
    {lines others : List (List (Item × Option BlockTag))} (unbroken : attached.1.Unbroken)
    (returned : List.Forall₂ LineReturned lines others) :
    List.Forall₂ LineReturned (consLine attached lines) (consLine attached others) := by
  cases returned with
  | nil => exact .cons (.last (by simpa using unbroken)) .nil
  | cons first following => exact .cons (first.cons unbroken) following

/-- An item that ends no line joins the first of the `attachedLines` after it. -/
theorem exists_attachedLines_cons {item : Item} (goesOn : item.isNewline = false)
    (tags : List BlockTag) :
    ∃ tag tagsLeft, ∀ rest,
      attachedLines (item :: rest) tags = consLine (item, tag) (attachedLines rest tagsLeft) := by
  cases control : item.isControl with
  | true =>
    refine ⟨tags.head?, tags.tail, fun rest => ?_⟩
    rw [attachedLines, attach, if_pos control]
    apply linesAfter_cons
    exact goesOn
  | false =>
    refine ⟨none, tags, fun rest => ?_⟩
    rw [attachedLines, attach_other control]
    apply linesAfter_cons
    exact goesOn

theorem attachedLines_newline (rest : List Item) (tags : List BlockTag) :
    attachedLines (.newline :: rest) tags = [(.newline, none)] :: attachedLines rest tags := by
  rw [attachedLines, attach_other rfl]
  apply linesAfter_line (List.forall_mem_nil _)
  rfl

theorem attachedLines_text_newline (content : String) (rest : List Item) (tags : List BlockTag) :
    attachedLines (.text content :: .newline :: rest) tags =
      [(.text content, none), (.newline, none)] :: attachedLines rest tags := by
  rw [attachedLines, attach_other rfl, attach_other rfl]
  apply linesAfter_line (List.forall_mem_singleton.2 _)
  · rfl
  · rfl

end Layout

open Layout in
/-- Line by line `Returned` items have a carriage return before the line end, if the line has one.
-/
theorem Returned.forall₂_attachedLines {items others : List Item}
    (returned : Returned items others) (tags : List BlockTag) :
    List.Forall₂ LineReturned (attachedLines items tags) (attachedLines others tags) := by
  induction returned generalizing tags with
  | nil => exact .nil
  | @text content rest others unbroken _ inductionHypothesis =>
    obtain ⟨tag, tagsLeft, goesOn⟩ :=
      exists_attachedLines_cons (show (Item.text content).isNewline = false from rfl) tags
    rw [goesOn, goesOn]
    exact forall₂_lineReturned_consLine unbroken (inductionHypothesis tagsLeft)
  | @tag meaning line rest others _ inductionHypothesis =>
    obtain ⟨tag, tagsLeft, goesOn⟩ :=
      exists_attachedLines_cons (show (Item.tag meaning line).isNewline = false from rfl) tags
    rw [goesOn, goesOn]
    exact forall₂_lineReturned_consLine trivial (inductionHypothesis tagsLeft)
  | newline _ inductionHypothesis =>
    rw [attachedLines_newline, attachedLines_text_newline]
    refine .cons (.ended ?_ (.newline .nil) ?_) (inductionHypothesis tags)
    · exact ⟨_, List.mem_singleton.2 rfl, rfl⟩
    · exact ⟨_, none, List.mem_cons_self, by simp⟩
  | textNewline unbroken _ inductionHypothesis =>
    rw [attachedLines_text_newline, attachedLines_text_newline]
    refine .cons (.ended ?_ (.textNewline unbroken .nil) ?_) (inductionHypothesis tags)
    · exact ⟨_, List.mem_cons_of_mem _ (List.mem_singleton.2 rfl), rfl⟩
    · exact ⟨_, none, List.mem_cons_self, by simp⟩

namespace Layout

/-- What is `kept` of a line when a carriage return stands before its end: all of it, since then it
does not stand alone. A line that has no end is judged as it is. -/
def keptIfEnded (line : List (Item × Option BlockTag)) : List Item :=
  if ∃ attached ∈ line, attached.1 = .newline then line.map (·.1) else kept line

/-- A line on which there is a carriage return does not stand alone (`StandsAlone`). -/
theorem not_standsAlone_of_return {line : List (Item × Option BlockTag)}
    (withReturn : ∃ content tag, (.text content, tag) ∈ line ∧ '\r' ∈ content.toList) :
    ¬ StandsAlone line := by
  rintro ⟨blank, _, _⟩
  obtain ⟨content, tag, member, isReturn⟩ := withReturn
  rcases blank content tag member '\r' isReturn with same | same <;> cases same

/-- What is `kept` of a line is among its items. -/
theorem mem_of_mem_kept {line : List (Item × Option BlockTag)} {item : Item}
    (member : item ∈ kept line) : item ∈ line.map (·.1) := by
  unfold kept at member
  split at member
  · exact (List.mem_filter.1 member).1
  · exact member

theorem mem_of_mem_keptIfEnded {line : List (Item × Option BlockTag)} {item : Item}
    (member : item ∈ keptIfEnded line) : item ∈ line.map (·.1) := by
  unfold keptIfEnded at member
  split at member
  · exact member
  · exact mem_of_mem_kept member

/-- What is on the `attachedLines` of items is among the items. -/
theorem mem_of_mem_attachedLines {items : List Item} {tags : List BlockTag}
    {line : List (Item × Option BlockTag)} (ofItems : line ∈ attachedLines items tags)
    {item : Item} (member : item ∈ line.map (·.1)) : item ∈ items := by
  obtain ⟨attached, found, rfl⟩ := List.mem_map.1 member
  have whole : (attachedLines items tags).flatten = attach items tags := flatten_linesAfter _ _
  have inAll : attached ∈ attach items tags :=
    whole ▸ List.mem_flatten.2 ⟨line, ofItems, found⟩
  rw [← map_fst_attach items tags]
  exact List.mem_map_of_mem inAll

/-- What is `kept` of a line with a carriage return is all of the line, with the carriage return, or
what is kept of a line without an end. -/
theorem LineReturned.kept {line other : List (Item × Option BlockTag)}
    (lineReturned : LineReturned line other) : Returned (keptIfEnded line) (kept other) := by
  cases lineReturned with
  | last unbroken =>
    have notEnded : ¬ ∃ attached ∈ line, attached.1 = .newline := by
      rintro ⟨attached, member, isEnd⟩
      have := unbroken attached member
      rw [isEnd] at this
      exact this
    rw [keptIfEnded, if_neg notEnded]
    refine .refl fun item member => ?_
    obtain ⟨attached, found, rfl⟩ := List.mem_map.1 (mem_of_mem_kept member)
    exact unbroken attached found
  | ended ends returned withReturn =>
    rw [keptIfEnded, if_pos ends, Layout.kept, if_neg (not_standsAlone_of_return withReturn)]
    exact returned

/-- With carriage returns, all is `kept` of the lines that have an end (`keptIfEnded`). -/
theorem returned_flatMap_kept {lines others : List (List (Item × Option BlockTag))}
    (returned : List.Forall₂ LineReturned lines others) :
    Returned (lines.flatMap keptIfEnded) (others.flatMap kept) := by
  induction returned with
  | nil => exact .nil
  | cons first _ inductionHypothesis =>
    rw [List.flatMap_cons, List.flatMap_cons]
    exact first.kept.append inductionHypothesis

end Layout

end Mustache
