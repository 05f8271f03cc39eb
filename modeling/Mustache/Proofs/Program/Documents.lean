import Mustache.Program.Json
import Mustache.Proofs.Json.Fields
import Mustache.Proofs.Json.Written

/-!
# Instructions are read back from their documents

The document of an instruction stands for that instruction alone, and so does the document of a
sequence of instructions, in either layout. Which of the two members of an instruction comes
first makes no difference: an argument that comes before its operation has to be kept until the
operation is known, and every argument is a document that can be kept.
-/

namespace Mustache.Instruction

open Json

/-- What is read from the fields of an object, if an argument that comes first can be kept. -/
def ofFields? (fields : Fields) : Option Instruction := do
  let operation ← operationOf? (← fields.required? "op")
  ofParts? operation (← fields.optional? "arg")

section Order

variable {depth : Nat} {members others : List (Option String × Tree)}

/-- Where an argument is a document, `ofTree?` makes no difference whether it comes first. -/
theorem ofTree?_object (isDocument : ∀ argument, (some "arg", argument) ∈ members →
      (Document.ofTree? (depth - 1) argument).isSome) :
    ofTree? depth (.object members) = (Fields.ofMembers? members).bind ofFields? := by
  rw [ofTree?]
  cases read : Fields.ofMembers? members with
  | none => rfl
  | some fields =>
    simp only [Option.bind_eq_bind, Option.bind_some, ofFields?]
    congr 1
    funext operationTree
    congr 1
    funext operation
    cases found : fields.optional? "arg" with
    | none => rfl
    | some argument? =>
      cases argument? with
      | none =>
        rw [Option.bind_some, Fields.startsWith_of_optional?_eq_none found]
        rfl
      | some argument =>
        obtain ⟨document, kept⟩ := Option.isSome_iff_exists.1
          (isDocument argument (Fields.mem_of_mem_ofMembers? read (Fields.mem_of_optional? found)))
        simp only [Option.bind_some, kept]
        split <;> rfl

/-- The members of an object may stand in any order for `ofTree?`, if an argument is a document. -/
theorem ofTree?_of_perm (order : members.Perm others)
    (isDocument : ∀ argument, (some "arg", argument) ∈ members →
      (Document.ofTree? (depth - 1) argument).isSome) :
    ofTree? depth (.object members) = ofTree? depth (.object others) := by
  rw [ofTree?_object isDocument, ofTree?_object fun argument member =>
    isDocument argument (order.mem_iff.2 member)]
  apply Fields.ofMembers?_bind_of_perm order
  intro fields arranged same
  simp only [ofFields?, Fields.required?_of_perm same, Fields.optional?_of_perm same]

end Order

/-- The members of an instruction's document. -/
def members (instruction : Instruction) : List (String × Document) :=
  ("op", .string instruction.operation) ::
    instruction.argument?.toList.map fun argument => ("arg", argument)

theorem document_eq (instruction : Instruction) :
    instruction.document = .object instruction.members := by
  rw [document, members]
  cases instruction.argument? <;> rfl

/-- A document has the members of an instruction's document, in either order. -/
def Arranges (document : Document) (instruction : Instruction) : Prop :=
  ∃ arranged : List (String × Document),
    document = .object arranged ∧ arranged.Perm instruction.members

theorem arranges_document (instruction : Instruction) : Arranges instruction.document instruction :=
  ⟨instruction.members, instruction.document_eq, .refl _⟩

theorem arranges_documents (instructions : List Instruction) :
    List.Forall₂ Arranges (instructions.map document) instructions := by
  rw [List.forall₂_map_left_iff, List.forall₂_same]
  exact fun instruction _ => instruction.arranges_document

/-- There is no number in the `members` of an instruction. -/
theorem numberless_of_mem_members {instruction : Instruction} {name : String} {value : Document}
    (member : (name, value) ∈ instruction.members) : value.Numberless := by
  rcases List.mem_cons.1 member with same | later
  · cases same
    trivial
  · obtain ⟨argument, takes, same⟩ := List.mem_map.1 later
    cases same
    rcases instruction with text | ⟨path, escaped⟩ | ⟨_ | _, path⟩ | _ | name <;>
      cases Option.mem_toList.1 takes <;>
      simp [Document.Numberless, Document.NumberlessMembers]

/-- What an instruction has for an `argument?` is a document of at most two levels. -/
theorem isSome_ofTree?_argument {instruction : Instruction} {argument : Document}
    (takes : instruction.argument? = some argument) {depth : Nat} (deep : 1 ≤ depth) :
    (Document.ofTree? depth argument.tree).isSome := by
  obtain ⟨depth, rfl⟩ := Nat.exists_eq_add_of_le' deep
  rcases instruction with text | ⟨path, escaped⟩ | ⟨_ | _, path⟩ | _ | name <;> cases takes <;> rfl

/-- An instruction is read back from its `document` by `ofTree?`. -/
theorem ofTree?_document (depth : Nat) (instruction : Instruction) :
    ofTree? depth instruction.document.tree = some instruction := by
  rcases instruction with text | ⟨path, escaped⟩ | ⟨_ | _, path⟩ | _ | name <;> rfl

section Arranged

variable {document : Document} {instruction : Instruction} {documents : List Document}
  {instructions : List Instruction} {depth : Nat}

/-- There is no number in a document that `Arranges` an instruction. -/
theorem Arranges.numberless (arranges : Arranges document instruction) : document.Numberless := by
  obtain ⟨arranged, rfl, order⟩ := arranges
  rw [Document.Numberless, Document.numberlessMembers_iff]
  exact fun name value member => numberless_of_mem_members (order.mem_iff.1 member)

/-- An instruction is read back by `ofTree?` from its members in either order. -/
theorem Arranges.ofTree? (arranges : Arranges document instruction) (deep : 2 ≤ depth) :
    ofTree? depth document.tree = some instruction := by
  obtain ⟨arranged, rfl, order⟩ := arranges
  rw [← ofTree?_document depth instruction, document_eq, Document.tree, Document.tree,
    Document.treeMembers_eq, Document.treeMembers_eq]
  apply ofTree?_of_perm (order.map _)
  intro argument member
  obtain ⟨⟨name, value⟩, there, same⟩ := List.mem_map.1 member
  cases same
  rcases List.mem_cons.1 (order.mem_iff.1 there) with isOperation | isArgument
  · simp at isOperation
  · obtain ⟨_, takes, same⟩ := List.mem_map.1 isArgument
    cases same
    apply isSome_ofTree?_argument (Option.mem_toList.1 takes)
    omega

/-- There is no number in the document of a sequence of instructions. -/
theorem numberless_of_arranges (arranged : List.Forall₂ Arranges documents instructions) :
    (Document.array documents).Numberless := by
  rw [Document.Numberless]
  induction arranged with
  | nil => rw [Document.NumberlessItems]; trivial
  | cons first _ inductionHypothesis =>
    rw [Document.NumberlessItems]
    exact ⟨first.numberless, inductionHypothesis⟩

/-- Instructions are read back by `listOfTree?` from the list of their documents. -/
theorem listOfTree?_of_arranges (arranged : List.Forall₂ Arranges documents instructions)
    (deep : 3 ≤ depth) : listOfTree? depth (Document.array documents).tree = some instructions := by
  rw [Document.tree, listOfTree?]
  induction arranged with
  | nil => rfl
  | cons first _ inductionHypothesis =>
    rw [Document.treeItems, List.mapM_cons, first.ofTree? (by omega), inductionHypothesis]
    rfl

/-- Instructions are read back by `parseList?` from the text of their documents, in any `Style`. -/
theorem parseList?_of_arranges (arranged : List.Forall₂ Arranges documents instructions)
    (style : Document.Style) :
    parseList? ((Document.array documents).write style) = some instructions := by
  rw [parseList?, Document.parse?_write style (numberless_of_arranges arranged), Option.bind_some]
  exact listOfTree?_of_arranges arranged (by decide)

end Arranged

end Mustache.Instruction
