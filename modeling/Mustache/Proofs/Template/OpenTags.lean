import Mustache.Proofs.Template.StandaloneLines

/-!
# Open tags

Whether the tags of a template fit together needs no tree: a machine that goes through them in
order and keeps the blocks that are open, innermost first, finds the same faults.
`OpenTags.run_items` is the invariant that carries this. Reading the content of a block is
running the machine with that block on top of the blocks around it, and when the block has been
read the machine stands at the blocks around it again.
-/

namespace Mustache

/-- The tag that an item is, and its line. -/
def Item.tag? : Item → Option (Tag × Nat)
  | .tag meaning line => some (meaning, line)
  | .text _ | .newline => none

/-- The tag that a token is, understood, and its line. -/
def Token.tag? : Token → Option (Tag × Nat)
  | .tag body line => some (Tag.ofBody body, line)
  | .text _ | .newline => none

/-- What is no tag has no tag. -/
theorem Item.tag?_of_isTag_eq_false {item : Item} (noTag : item.isTag = false) :
    item.tag? = none := by
  cases item with
  | text | newline => rfl
  | tag => cases noTag

/-- What `tag?` finds in tokens it finds in their items. -/
theorem Token.filterMap_tag? (tokens : List Token) :
    tokens.filterMap tag? = (tokens.map Item.ofToken).filterMap Item.tag? := by
  rw [List.filterMap_map]
  congr 1
  funext token
  cases token <;> rfl

/-- The names of the blocks that are open and the lines on which they were opened, innermost
first. -/
abbrev OpenTags := List (String × Nat)

namespace OpenTags

/-- The blocks that are open after a tag. -/
def step (openTags : OpenTags) : Tag × Nat → Except StructuralError OpenTags
  | (.openBlock _ name, line) => .ok ((name, line) :: openTags)
  | (.closeBlock found, line) =>
    match openTags with
    | [] => .error (.unexpectedClose found line)
    | (expected, _) :: enclosing =>
      if expected = found then .ok enclosing else .error (.mismatched expected found line)
  | (.empty, line) => .error (.emptyTag line)
  | (.partialCall _, _) | (.interpolation _ _, _) | (.comment _, _) | (.pragma _, _) =>
    .ok openTags

/-- What is said where the tags end: the innermost block that is open then is never closed. -/
def finish : OpenTags → Except StructuralError Unit
  | [] => .ok ()
  | (name, line) :: _ => .error (.unclosed name line)

/-- Goes through tags in order with `step`, from the blocks that are open to the end, where it must
`finish`. -/
def run (openTags : OpenTags) (tags : List (Tag × Nat)) : Except StructuralError Unit :=
  tags.foldlM step openTags >>= finish

@[simp] theorem run_nil (openTags : OpenTags) : run openTags [] = finish openTags := rfl

@[simp] theorem run_cons (openTags : OpenTags) (tag : Tag × Nat) (tags : List (Tag × Nat)) :
    run openTags (tag :: tags) =
      step openTags tag >>= fun openAfter => run openAfter tags := by
  simp only [run, List.foldlM_cons, bind_assoc]

/-- A tag that is complete in itself leaves the open blocks as they are in `run`. -/
theorem run_complete {item : Item} (complete : item.isComplete = true) (openTags : OpenTags)
    (following : List Item) :
    run openTags ((item :: following).filterMap Item.tag?) =
      run openTags (following.filterMap Item.tag?) := by
  cases item with
  | text | newline => rfl
  | tag meaning line =>
    cases meaning with
    | openBlock | closeBlock | empty => cases complete
    | partialCall | interpolation | comment | pragma => exact run_cons ..

open Template in
/-- Reading a block (`outcome`) is to `run` the machine with this block on top of the blocks around
it. When the block has been read, the blocks around it are open and the items after it are left; the
whole template has no blocks around it. -/
theorem run_items (enclosing : Option (String × Nat)) (outer : OpenTags)
    (outermost : enclosing = none → outer = []) (items : List Item) :
    run (enclosing.toList ++ outer) (items.filterMap Item.tag?) =
      outcome enclosing items >>= fun (_, _, rest) => run outer (rest.filterMap Item.tag?) := by
  match items with
  | [] =>
    rw [outcome_nil]
    cases enclosing with
    | none =>
      have alone := outermost rfl
      subst alone
      rfl
    | some => rfl
  | .tag (.openBlock kind name) line :: following =>
    rw [outcome_openBlock]
    have inside := run_items (some (name, line)) (enclosing.toList ++ outer) nofun following
    have opened : run (enclosing.toList ++ outer)
        ((Item.tag (.openBlock kind name) line :: following).filterMap Item.tag?) =
        run ((name, line) :: (enclosing.toList ++ outer)) (following.filterMap Item.tag?) :=
      run_cons ..
    apply opened.trans
    apply inside.trans
    cases read : outcome (some (name, line)) following with
    | error => rfl
    | ok inner =>
      obtain ⟨content, closingLine, after⟩ := inner
      have shorter := length_lt_of_outcome read
      apply (run_items enclosing outer outermost after).trans
      dsimp only
      cases outcome enclosing after <;> rfl
  | .tag (.closeBlock found) line :: following =>
    rw [outcome_closeBlock]
    cases enclosing with
    | none =>
      have alone := outermost rfl
      subst alone
      rfl
    | some opened =>
      obtain ⟨expected, openedAt⟩ := opened
      apply (run_cons ..).trans
      by_cases same : expected = found <;> simp [step, same] <;> rfl
  | .tag .empty line :: following =>
    rw [outcome_emptyTag]
    rfl
  | .text _ :: following | .newline :: following | .tag (.partialCall _) _ :: following
  | .tag (.interpolation _ _) _ :: following | .tag (.comment _) _ :: following
  | .tag (.pragma _) _ :: following =>
    rw [outcome_complete rfl]
    apply (run_complete rfl _ following).trans
    apply (run_items enclosing outer outermost following).trans
    cases outcome enclosing following <;> rfl
  termination_by items.length

end OpenTags

namespace Template

/-- No items are left when the `outcome` of a whole template has been read. -/
theorem rest_eq_nil_of_outcome {items rest : List Item} {template : Template} {line : Nat}
    (read : outcome none items = .ok (template, line, rest)) : rest = [] := by
  obtain ⟨consumed, spelled, itemsEq⟩ := spelled_of_outcome read
  have again := outcome_append spelled none []
  rw [outcome_nil] at again
  rw [itemsEq, atEnd, again] at read
  simp only [Except.map, Except.ok.injEq, Prod.mk.injEq] at read
  exact read.2.2.symm

/-- The machine `OpenTags.run` finds the faults that `ofItems` finds. -/
theorem run_filterMap_tag (items : List Item) :
    OpenTags.run [] (items.filterMap Item.tag?) = (ofItems items).map fun _ => () := by
  apply (OpenTags.run_items none [] (fun _ => rfl) items).trans
  rw [ofItems]
  cases read : outcome none items with
  | error => rfl
  | ok reading =>
    obtain ⟨template, line, rest⟩ := reading
    have nothing := rest_eq_nil_of_outcome read
    subst nothing
    rfl

/-- Standalone lines keep all tags, so `OpenTags.run` may go through the tags of the tokens. -/
theorem run_tokens (tokens : List Token) :
    OpenTags.run [] (tokens.filterMap Token.tag?) = (ofTokens tokens).map fun _ => () := by
  rw [ofTokens_eq, ← run_filterMap_tag,
    Layout.filterMap_elide fun _ => Item.tag?_of_isTag_eq_false, Token.filterMap_tag?]

/-- Tokens are read by `ofTokens` as a template exactly when the machine `OpenTags.run` comes to the
end of their tags without a fault, and otherwise the first fault of the machine is the one reported.
-/
theorem ofTokens_iff_run (tokens : List Token) :
    ((∃ template, ofTokens tokens = .ok template) ↔
        OpenTags.run [] (tokens.filterMap Token.tag?) = .ok ()) ∧
      ∀ fault, ofTokens tokens = .error fault ↔
        OpenTags.run [] (tokens.filterMap Token.tag?) = .error fault := by
  rw [run_tokens]
  cases ofTokens tokens with
  | ok template => simp [Except.map]
  | error found => simp [Except.map]

/-- A block closed in the wrong order is told from one that is never closed. -/
example :
    OpenTags.run [] [(.openBlock .iterable "a", 1), (.openBlock .inverted "b", 2),
      (.closeBlock "a", 3)] = .error (.mismatched "b" "a" 3) := rfl

end Template

end Mustache
