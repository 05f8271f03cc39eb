import Mustache.Template.Node

/-!
# The grammar of items

Which sequences of items make a template, and which template they make, as a relation with one
rule for each form: nothing, an item that is complete in itself, and a block.
`outcome_append` says that reading passes over such a sequence whatever comes after it,
and `ofItems_eq_ok_iff` that reading accepts exactly these sequences.
-/

namespace Mustache

namespace Item

/-- Whether an item is complete in itself: neither the end of a block nor an empty tag. -/
def isComplete : Item → Bool
  | .tag (.openBlock _ _) _ | .tag (.closeBlock _) _ | .tag .empty _ => false
  | _ => true

/-- A template with what an item adds in front of it. -/
def addTo (template : Template) : Item → Template
  | .text content => { template with nodes := Node.consText content template.nodes }
  | .newline => { template with nodes := Node.consText "\n" template.nodes }
  | .tag (.partialCall name) line =>
    { template with nodes := .partialCall name line :: template.nodes }
  | .tag (.interpolation path escaped) line =>
    { template with nodes := .interpolation path escaped line :: template.nodes }
  | .tag (.comment remark) line =>
    { template with nodes := .comment remark line :: template.nodes }
  | .tag (.pragma directive) line =>
    { template with warnings := .unsupportedPragma directive line :: template.warnings }
  | .tag (.openBlock _ _) _ | .tag (.closeBlock _) _ | .tag .empty _ => template

end Item

/-- Nodes followed by nodes; a text at the seam joins the text that follows. -/
def Node.append : List Node → List Node → List Node
  | [], following => following
  | [.text content], following => Node.consText content following
  | node :: rest, following => node :: Node.append rest following

namespace Template

/-- A template without content. -/
def empty : Template := ⟨[], []⟩

/-- A template followed by a template. -/
def append (first second : Template) : Template :=
  ⟨Node.append first.nodes second.nodes, first.warnings ++ second.warnings⟩

/-- The block of a name over lines, with a content, in front of a template. -/
def addBlock (kind : BlockKind) (name : String) (firstLine lastLine : Nat)
    (content following : Template) : Template where
  nodes := .block kind name content.nodes firstLine lastLine :: following.nodes
  warnings := content.warnings ++ following.warnings

/-- The sequences of items that make a template. -/
inductive Spelled : List Item → Template → Prop where
  | empty : Spelled [] .empty
  | item {item : Item} {rest : List Item} {template : Template}
      (complete : item.isComplete = true) (following : Spelled rest template) :
      Spelled (item :: rest) (item.addTo template)
  | block {kind : BlockKind} {name : String} {firstLine lastLine : Nat}
      {inner rest : List Item} {content template : Template}
      (body : Spelled inner content) (following : Spelled rest template) :
      Spelled
        (.tag (.openBlock kind name) firstLine ::
          (inner ++ .tag (.closeBlock name) lastLine :: rest))
        (addBlock kind name firstLine lastLine content template)

end Template

namespace Node

theorem consText_consText (first second : String) (nodes : List Node) :
    consText first (consText second nodes) = consText (first ++ second) nodes := by
  cases nodes with
  | nil => rfl
  | cons node rest =>
    cases node with
    | text following => simp [consText, String.append_assoc]
    | interpolation | block | partialCall | comment => rfl

/-- Text in front (`consText`) stays in front when nodes are put together by `append`. -/
theorem append_consText (content : String) (nodes following : List Node) :
    append (consText content nodes) following = consText content (append nodes following) := by
  cases nodes with
  | nil => rfl
  | cons node rest =>
    cases node with
    | text next =>
      cases rest with
      | nil => exact (consText_consText content next following).symm
      | cons => simp [consText, append]
    | interpolation | block | partialCall | comment => simp [consText, append]

end Node

namespace Template

/-- Nothing comes after a template that is followed by the `empty` one. -/
@[simp] theorem append_empty (template : Template) : template.append empty = template := by
  have nodes : Node.append template.nodes [] = template.nodes := by
    induction template.nodes with
    | nil => rfl
    | cons node rest inductionHypothesis =>
      cases rest with
      | nil => cases node <;> rfl
      | cons => simp [Node.append, inductionHypothesis]
  simp [append, empty, nodes]

@[simp] theorem empty_append (template : Template) : empty.append template = template := rfl

/-- What `addTo` adds in front stays in front when templates are put together. -/
theorem addTo_append (item : Item) (first second : Template) :
    (item.addTo first).append second = item.addTo (first.append second) := by
  unfold Item.addTo
  split <;> simp [append, Node.append, Node.append_consText]

theorem addBlock_append (kind : BlockKind) (name : String) (firstLine lastLine : Nat)
    (content first second : Template) :
    (addBlock kind name firstLine lastLine content first).append second =
      addBlock kind name firstLine lastLine content (first.append second) := by
  simp [addBlock, append, Node.append]

/-- What reading a block comes to: its content, the line of its closing tag and the items after
it. -/
def outcome (enclosing : Option (String × Nat)) (items : List Item) :
    Except StructuralError (Template × Nat × List Item) :=
  (readBlock enclosing items).map fun reading =>
    (reading.content, reading.closingLine, reading.rest)

/-- An item that is complete in itself is added in front of the `outcome` of what follows it. -/
theorem outcome_complete {item : Item} (complete : item.isComplete = true)
    (enclosing : Option (String × Nat)) (following : List Item) :
    outcome enclosing (item :: following) =
      (outcome enclosing following).map fun (template, line, rest) =>
        (item.addTo template, line, rest) := by
  cases item with
  | text | newline =>
    rw [outcome, outcome, readBlock]
    cases readBlock enclosing following <;> rfl
  | tag meaning line =>
    cases meaning with
    | openBlock | closeBlock | empty => cases complete
    | partialCall | interpolation | comment | pragma =>
      rw [outcome, outcome, readBlock]
      cases readBlock enclosing following <;> rfl

/-- At an opening tag `outcome` reads a block up to its closing tag, and then what follows. -/
theorem outcome_openBlock (kind : BlockKind) (name : String) (line : Nat)
    (enclosing : Option (String × Nat)) (following : List Item) :
    outcome enclosing (.tag (.openBlock kind name) line :: following) =
      match outcome (some (name, line)) following with
      | .error error => .error error
      | .ok (content, closingLine, after) =>
        (outcome enclosing after).map fun (template, lastLine, rest) =>
          (addBlock kind name line closingLine content template, lastLine, rest) := by
  rw [outcome, outcome, readBlock]
  cases readBlock (some (name, line)) following with
  | error => rfl
  | ok inner =>
    simp only [Except.map, outcome]
    cases readBlock enclosing inner.rest <;> rfl

/-- At a closing tag `outcome` ends the block of its name and no other. -/
theorem outcome_closeBlock (found : String) (line : Nat) (enclosing : Option (String × Nat))
    (following : List Item) :
    outcome enclosing (.tag (.closeBlock found) line :: following) =
      match enclosing with
      | none => .error (.unexpectedClose found line)
      | some (expected, _) =>
        if expected = found then .ok (empty, line, following)
        else .error (.mismatched expected found line) := by
  cases enclosing with
  | none =>
    rw [outcome, readBlock]
    rfl
  | some opened =>
    obtain ⟨expected, openedAt⟩ := opened
    rw [outcome, readBlock]
    by_cases same : expected = found
    · simp only [if_pos same]
      rfl
    · simp only [if_neg same]
      rfl

theorem outcome_emptyTag (line : Nat) (enclosing : Option (String × Nat))
    (following : List Item) :
    outcome enclosing (.tag .empty line :: following) = .error (.emptyTag line) := by
  rw [outcome, readBlock]
  rfl

/-- The `outcome` of no items is a template where no block is open. -/
theorem outcome_nil (enclosing : Option (String × Nat)) :
    outcome enclosing [] =
      match enclosing with
      | none => .ok (empty, 0, [])
      | some (name, line) => .error (.unclosed name line) := by
  cases enclosing with
  | none =>
    rw [outcome, readBlock]
    rfl
  | some opened =>
    rw [outcome, readBlock]
    rfl

/-- To read an `outcome` is to pass over the items of a template and to add them in front of what
comes next. -/
theorem outcome_append {items : List Item} {template : Template}
    (spelled : Spelled items template) (enclosing : Option (String × Nat))
    (following : List Item) :
    outcome enclosing (items ++ following) =
      (outcome enclosing following).map fun (next, line, rest) =>
        (template.append next, line, rest) := by
  induction spelled generalizing enclosing following with
  | empty =>
    rw [List.nil_append]
    cases outcome enclosing following <;> rfl
  | @item item rest template complete _ inductionHypothesis =>
    rw [List.cons_append, outcome_complete complete, inductionHypothesis]
    cases outcome enclosing following with
    | error => rfl
    | ok next => simp only [Except.map, addTo_append]
  | @block kind name firstLine lastLine inner rest content template _ _ bodyHypothesis
      followingHypothesis =>
    rw [List.cons_append, List.append_assoc, List.cons_append, outcome_openBlock,
      bodyHypothesis, outcome_closeBlock]
    simp only [if_true, Except.map, append_empty]
    rw [followingHypothesis]
    cases outcome enclosing following with
    | error => rfl
    | ok next => simp only [Except.map, addBlock_append]

/-- The items from the end of a block's content on: the closing tag and what follows it, or
nothing at the end of the template. -/
def atEnd (enclosing : Option (String × Nat)) (line : Nat) (rest : List Item) : List Item :=
  match enclosing with
  | none => []
  | some (name, _) => .tag (.closeBlock name) line :: rest

/-- What an `outcome` has read is a template, up to the end of the block it is read in. -/
theorem spelled_of_outcome {enclosing : Option (String × Nat)} {items : List Item}
    {template : Template} {closingLine : Nat} {rest : List Item}
    (read : outcome enclosing items = .ok (template, closingLine, rest)) :
    ∃ consumed, Spelled consumed template ∧
      items = consumed ++ atEnd enclosing closingLine rest := by
  match items with
  | [] =>
    rw [outcome_nil] at read
    cases enclosing with
    | none =>
      cases read
      exact ⟨[], .empty, rfl⟩
    | some => cases read
  | .tag (.openBlock kind name) line :: following =>
    rw [outcome_openBlock] at read
    cases inner : outcome (some (name, line)) following with
    | error =>
      rw [inner] at read
      cases read
    | ok result =>
      obtain ⟨content, innerLine, after⟩ := result
      rw [inner] at read
      obtain ⟨body, bodySpelled, followingEq⟩ := spelled_of_outcome inner
      have shorter : after.length < following.length := by
        rw [followingEq, atEnd, List.length_append, List.length_cons]
        omega
      cases outer : outcome enclosing after with
      | error =>
        simp only [outer, Except.map] at read
        cases read
      | ok outerResult =>
        obtain ⟨next, lastLine, remaining⟩ := outerResult
        simp only [outer, Except.map, Except.ok.injEq, Prod.mk.injEq] at read
        obtain ⟨rfl, rfl, rfl⟩ := read
        obtain ⟨consumed, spelled, afterEq⟩ := spelled_of_outcome outer
        refine ⟨_, .block bodySpelled spelled, ?_⟩
        rw [followingEq, atEnd, afterEq]
        simp
  | .tag (.closeBlock found) line :: following =>
    rw [outcome_closeBlock] at read
    cases enclosing with
    | none => cases read
    | some opened =>
      obtain ⟨expected, openedAt⟩ := opened
      simp only at read
      split at read
      · next same =>
        cases read
        exact ⟨[], .empty, by rw [same]; rfl⟩
      · cases read
  | .tag .empty line :: following =>
    rw [outcome_emptyTag] at read
    cases read
  | .text _ :: following | .newline :: following | .tag (.partialCall _) _ :: following
  | .tag (.interpolation _ _) _ :: following | .tag (.comment _) _ :: following
  | .tag (.pragma _) _ :: following =>
    rw [outcome_complete rfl] at read
    cases later : outcome enclosing following with
    | error =>
      rw [later] at read
      cases read
    | ok result =>
      obtain ⟨next, lastLine, remaining⟩ := result
      simp only [later, Except.map, Except.ok.injEq, Prod.mk.injEq] at read
      obtain ⟨rfl, rfl, rfl⟩ := read
      obtain ⟨consumed, spelled, followingEq⟩ := spelled_of_outcome later
      refine ⟨_, .item rfl spelled, ?_⟩
      rw [followingEq, List.cons_append]
  termination_by items.length

/-- After the `outcome` of a block there are fewer items. -/
theorem length_lt_of_outcome {opened : String × Nat} {items : List Item} {template : Template}
    {closingLine : Nat} {rest : List Item}
    (read : outcome (some opened) items = .ok (template, closingLine, rest)) :
    rest.length < items.length := by
  obtain ⟨consumed, _, itemsEq⟩ := spelled_of_outcome read
  rw [itemsEq, atEnd, List.length_append, List.length_cons]
  omega

/-- The template that a sequence of items spells, if it spells one. -/
def ofItems (items : List Item) : Except StructuralError Template :=
  (outcome none items).map (·.1)

/-- Reading with `ofItems` accepts exactly the sequences of items that spell a template (`Spelled`).
-/
theorem ofItems_eq_ok_iff (items : List Item) (template : Template) :
    ofItems items = .ok template ↔ Spelled items template := by
  constructor
  · intro read
    unfold ofItems at read
    cases found : outcome none items with
    | error =>
      rw [found] at read
      cases read
    | ok result =>
      rw [found] at read
      cases read
      obtain ⟨consumed, spelled, itemsEq⟩ := spelled_of_outcome found
      rw [itemsEq, atEnd, List.append_nil]
      exact spelled
  · intro spelled
    have read := outcome_append spelled none []
    rw [List.append_nil, outcome_nil] at read
    rw [ofItems, read]
    simp [Except.map]

/-- A text is read by `parse` as `ofTokens` reads its tokens. -/
theorem parse_of_scan {delimiters : Delimiters} {source : String} {tokens : List Token}
    (scanned : Token.scan delimiters source = .ok tokens) :
    parse delimiters source = ofTokens tokens := by
  rw [parse, scanned]
  rfl

/-- A template's tokens are read by `ofTokens` as the items that `Layout.elide` leaves. -/
theorem ofTokens_eq (tokens : List Token) :
    ofTokens tokens = ofItems (Layout.elide (tokens.map Item.ofToken)) := by
  rw [ofTokens, ofItems, outcome]
  cases readBlock none (Layout.elide (tokens.map Item.ofToken)) <;> rfl

/-- What `Layout.elide` leaves of tokens spells the template that `ofTokens` reads. -/
theorem spelled_of_ofTokens {tokens : List Token} {template : Template}
    (read : ofTokens tokens = .ok template) :
    Spelled (Layout.elide (tokens.map Item.ofToken)) template :=
  (ofItems_eq_ok_iff _ _).1 (ofTokens_eq tokens ▸ read)

end Template

end Mustache
