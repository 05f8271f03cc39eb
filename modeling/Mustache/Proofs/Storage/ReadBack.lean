import Mustache.Proofs.Storage.RoundTrip

/-!
# Instructions and artifacts are read back

What is written about a program says all about it: its instructions from their text, its hash and
its instructions from the text of its file, and no less so where the members of an object have
changed places.
-/

namespace Mustache.Storage

/-- Instructions are read back by `Instruction.parseList?` from their text in either layout, and
also where operation and argument of an instruction have changed places. An artifact is read back
likewise by `Artifact.parse?`, whatever the order of its members. The file into which a program was
stored holds the artifact with the program's hash and instructions. -/
theorem read_back :
    (∀ (style : Document.Style) (instructions : List Instruction),
      Instruction.parseList? ((Instruction.documents instructions).write style) =
        some instructions) ∧
    (∀ (style : Document.Style) (documents : List Document) (instructions : List Instruction),
      List.Forall₂ Instruction.Arranges documents instructions →
        Instruction.parseList? ((Document.array documents).write style) = some instructions) ∧
    (∀ (style : Document.Style) (document : Document) (artifact : Artifact),
      Artifact.Arranges document artifact →
        Artifact.parse? (document.write style) = some artifact) ∧
    ∀ (root path : String) (now : Timestamp) (program : Program) (disk after : Disk),
      persist root now program disk = (.ok (.written path), after) →
        path = Artifact.path root program.hash ∧
          Holds after path ⟨program.hash, now, program.instructions.toList⟩ := by
  refine ⟨?_, ?_, ?_, ?_⟩
  · intro style instructions
    exact Instruction.parseList?_of_arranges (Instruction.arranges_documents instructions) style
  · intro style documents instructions arranged
    exact Instruction.parseList?_of_arranges arranged style
  · intro style document artifact arranged
    exact arranged.parse?_write style
  · intro root path now program disk after persisted
    rcases persist_eq_ok persisted with ⟨unchanged, _⟩ | ⟨written, holds⟩
    · cases unchanged
    · cases written
      exact ⟨rfl, holds⟩

/-- The argument stands before the operation, in a list with an instruction of each kind, and a
program is stored on an empty disk. -/
theorem read_back_swapped :
    let content := "\x00\n\"\\😀"
    let instructions : List Instruction := [.literal content, .interpolation content true,
      .openBlock .iterable content, .closeBlock, .openBlock .inverted content, .closeBlock,
      .partialCall content]
    let documents : List Document := [
      .object [("arg", .string content), ("op", .string "emit_literal")],
      .object [("arg", .object [("path", .string content), ("escape", .bool true)]),
        ("op", .string "emit_variable")],
      .object [("arg", .string content), ("op", .string "begin_iterable")],
      .object [("op", .string "end")],
      .object [("arg", .string content), ("op", .string "begin_inverted")],
      .object [("op", .string "end")],
      .object [("arg", .string content), ("op", .string "invoke_partial")]]
    let artifact : Artifact := ⟨tag.hash, .epoch, instructions⟩
    Instruction.parseList? ((Document.array documents).write .compact) = some instructions ∧
      Artifact.parse? ((Document.object (artifact.members documents).reverse).write .pretty) =
        some artifact ∧
      ∃ after, persist "/" .epoch tag ⟨.directory [], [], none⟩ =
          (.ok (.written (Artifact.path "/" tag.hash)), after) ∧
        Holds after (Artifact.path "/" tag.hash) ⟨tag.hash, .epoch, [.interpolation "a" true]⟩ := by
  intro content instructions documents artifact
  have arranged : List.Forall₂ Instruction.Arranges documents instructions :=
    .cons ⟨_, rfl, .swap ..⟩ <| .cons ⟨_, rfl, .swap ..⟩ <| .cons ⟨_, rfl, .swap ..⟩ <|
      .cons ⟨_, rfl, .refl _⟩ <| .cons ⟨_, rfl, .swap ..⟩ <| .cons ⟨_, rfl, .refl _⟩ <|
      .cons ⟨_, rfl, .swap ..⟩ .nil
  have fresh : Fresh "/" ⟨.directory [], [], none⟩ := Fresh.of_forward (by decide +kernel)
    fits_slash rfl (by decide +kernel) (by decide +kernel)
  obtain ⟨location, opens⟩ := fresh.opens
  have free : ([] : List (String × Entry)).lookup (Artifact.fileName tag.hash) = none := rfl
  obtain ⟨after, persisted, _⟩ := persist_of_opens .epoch fits_slash opens free rfl
  refine ⟨read_back.2.1 .compact documents instructions arranged,
    read_back.2.2.1 .pretty _ artifact ⟨_, documents, rfl, List.reverse_perm _, arranged⟩,
    after, persisted, ?_⟩
  exact (read_back.2.2.2 "/" _ .epoch tag _ after persisted).2

end Mustache.Storage
