import Mathlib.Data.List.Basic
import Mustache.Proofs.Hash.HexText
import Mustache.Proofs.Program.Documents
import Mustache.Proofs.Storage.Path
import Mustache.Storage.Artifact

/-!
# Artifacts are read back

The text of an artifact's file is read back as that artifact, whatever the instructions are, and
the file has a plain name of its own in the directory of the programs, which tells the hash.
-/

namespace Mustache

/-- A timestamp is read back from its `text` by `ofText?`. -/
theorem Timestamp.ofText?_text (timestamp : Timestamp) :
    ofText? timestamp.text = some timestamp := by
  rw [ofText?, dif_pos timestamp.isMoment]

namespace Artifact

/-- The members of an artifact's document, with documents in place of its instructions. -/
def members (artifact : Artifact) (documents : List Document) : List (String × Document) :=
  [("hash", .string artifact.hash.text), ("persisted_at", .string artifact.persistedAt.text),
    ("instructions", .array documents)]

/-- A document has the `members` of an artifact's document in any order, and so has each document in
the list of its instructions. -/
def Arranges (document : Document) (artifact : Artifact) : Prop :=
  ∃ (arranged : List (String × Document)) (documents : List Document),
    document = .object arranged ∧ arranged.Perm (artifact.members documents) ∧
      List.Forall₂ Instruction.Arranges documents artifact.instructions

theorem arranges_document (artifact : Artifact) : Arranges artifact.document artifact :=
  ⟨_, _, rfl, .refl _, Instruction.arranges_documents artifact.instructions⟩

/-- The parts of an artifact are read from the fields of an object. -/
def ofFields? (fields : Json.Fields) : Option Artifact := do
  ofParts? (Document.maxDepth - 1) (← fields.required? "hash")
    (← fields.required? "persisted_at") (← fields.required? "instructions")

section Arranged

variable {document : Document} {artifact : Artifact}

/-- There is no number in a document that `Arranges` an artifact. -/
theorem Arranges.numberless (arranges : Arranges document artifact) : document.Numberless := by
  obtain ⟨arranged, documents, rfl, order, instructions⟩ := arranges
  rw [Document.Numberless, Document.numberlessMembers_iff]
  intro name value member
  have isMember := order.mem_iff.1 member
  simp only [members, List.mem_cons, List.not_mem_nil, Prod.mk.injEq, or_false] at isMember
  rcases isMember with ⟨_, rfl⟩ | ⟨_, rfl⟩ | ⟨_, rfl⟩
  · trivial
  · trivial
  · exact Instruction.numberless_of_arranges instructions

/-- An artifact is read back by `ofTree?` from its members in any order. -/
theorem Arranges.ofTree? (arranges : Arranges document artifact) :
    ofTree? document.tree = some artifact := by
  obtain ⟨arranged, documents, rfl, order, instructions⟩ := arranges
  have fields : ofTree? (Document.object arranged).tree =
      (Json.Fields.ofMembers? (Document.treeMembers arranged)).bind ofFields? := rfl
  have sameFields : (Json.Fields.ofMembers? (Document.treeMembers arranged)).bind ofFields? =
      (Json.Fields.ofMembers? (Document.treeMembers (artifact.members documents))).bind
        ofFields? := by
    rw [Document.treeMembers_eq, Document.treeMembers_eq]
    apply Json.Fields.ofMembers?_bind_of_perm (order.map _)
    intro fields others same
    simp only [ofFields?, Json.Fields.required?_of_perm same]
  have parts : (Json.Fields.ofMembers?
      (Document.treeMembers (artifact.members documents))).bind ofFields? =
      ofParts? (Document.maxDepth - 1) (.string (some artifact.hash.text))
        (.string (some artifact.persistedAt.text)) (Document.array documents).tree := rfl
  rw [fields, sameFields, parts, ofParts?]
  simp only [Json.Tree.text?, Option.bind_eq_bind, Option.bind_some, ContentHash.ofHex_text,
    Except.toOption, Timestamp.ofText?_text,
    Instruction.listOfTree?_of_arranges instructions (show 3 ≤ Document.maxDepth - 1 by decide)]
  rfl

/-- An artifact is read back by `parse?` from the text of a document that `Arranges` it. -/
theorem Arranges.parse?_write (arranges : Arranges document artifact) (style : Document.Style) :
    parse? (document.write style) = some artifact := by
  rw [parse?, Document.parse?_write style arranges.numberless, Option.bind_some,
    arranges.ofTree?]

end Arranged

/-- An artifact is read back by `parse?` from its `text`. -/
theorem parse?_text (artifact : Artifact) : parse? artifact.text = some artifact :=
  artifact.arranges_document.parse?_write .pretty

/-- The name of a program's file. -/
def fileName (hash : ContentHash) : String :=
  nameStart ++ hash.text ++ nameEnd

/-- The `path` of a program's file leads to its `fileName` in the `directory` of the programs. -/
theorem path_eq_join (root : String) (hash : ContentHash) :
    path root hash = Path.join (directory root) (fileName hash) := rfl

/-- The `fileName` of a program, with anything free of slashes after it, is a plain name. -/
theorem isPlain_fileName_append (hash : ContentHash) {suffix : String}
    (free : '/' ∉ suffix.toList) : Path.IsPlain (fileName hash ++ suffix) := by
  have characters : (fileName hash ++ suffix).toList =
      'P' :: ("rogram".toList ++ (Text.Hex.encode hash.bytes ++ (".json".toList ++ suffix.toList))) := by
    simp [fileName, nameStart, nameEnd, ContentHash.text]
  refine ⟨?_, ?_, ?_, ?_⟩
  · rw [characters]
    exact List.cons_ne_nil _ _
  · rw [characters]
    have noDigit : '/' ∉ Text.Hex.encode hash.bytes :=
      fun member => absurd (Text.Hex.mem_encode member) (by decide)
    simp [noDigit, free]
  · intro same
    rw [same] at characters
    exact absurd (List.cons.inj characters).1 (by decide)
  · intro same
    rw [same] at characters
    exact absurd (List.cons.inj characters).1 (by decide)

/-- The `fileName` of a program is a plain name. -/
theorem isPlain_fileName (hash : ContentHash) : Path.IsPlain (fileName hash) := by
  have plain := @isPlain_fileName_append hash "" List.not_mem_nil
  rwa [String.append_empty] at plain

/-- The file is written first under a plain name (`Path.IsPlain`) in the same directory. -/
theorem isPlain_temporaryName (hash : ContentHash) : Path.IsPlain (fileName hash ++ ".tmp") :=
  isPlain_fileName_append hash (by decide)

/-- The `temporaryPath` leads into the `directory` of the programs, too. -/
theorem temporaryPath_eq_join (root : String) (hash : ContentHash) :
    temporaryPath root hash = Path.join (directory root) (fileName hash ++ ".tmp") :=
  (isPlain_fileName hash).join_append (isPlain_temporaryName hash) _

/-- The `fileName` of a program gives `digitsOfName?` the digits of the hash. -/
theorem digitsOfName?_fileName (hash : ContentHash) :
    digitsOfName? (fileName hash) = some hash.text := by
  have named : (fileName hash).toList =
      nameStart.toList ++ (hash.text.toList ++ nameEnd.toList) := by
    rw [fileName, String.toList_append, String.toList_append, List.append_assoc]
  have start : nameStart.toList.isPrefixOf? (fileName hash).toList =
      some (hash.text.toList ++ nameEnd.toList) :=
    List.isPrefixOf?_eq_some_iff_append_eq.2 named.symm
  have ending : nameEnd.toList.isSuffixOf? (hash.text.toList ++ nameEnd.toList) =
      some hash.text.toList :=
    List.isSuffixOf?_eq_some_iff_append_eq.2 rfl
  rw [digitsOfName?, start]
  simp only [Option.bind_eq_bind, Option.bind_some, ending, String.ofList_toList]
  rfl

/-- The `fileName` of a program tells the hash. -/
theorem fileName_inj {left right : ContentHash} (same : fileName left = fileName right) :
    left = right := by
  have digits := digitsOfName?_fileName left
  rw [same, digitsOfName?_fileName, Option.some.injEq] at digits
  exact ContentHash.text_injective digits.symm

/-- The length of the `fileName` of a program. -/
theorem utf8ByteSize_fileName (hash : ContentHash) : (fileName hash).utf8ByteSize = 76 := by
  rw [fileName, String.utf8ByteSize_append, String.utf8ByteSize_append,
    ContentHash.utf8ByteSize_text]
  rfl

/-- The length of the name under which a program's file is written first. -/
theorem utf8ByteSize_temporaryName (hash : ContentHash) :
    (fileName hash ++ ".tmp").utf8ByteSize = 80 := by
  rw [String.utf8ByteSize_append, utf8ByteSize_fileName]
  rfl

/-- The name of the directory of the programs is a plain name. -/
theorem isPlain_programs : Path.IsPlain "programs" :=
  ⟨by decide, by decide, by decide, by decide⟩

/-- The name of the directory above it is a plain name. -/
theorem isPlain_stache : Path.IsPlain "stache" :=
  ⟨by decide, by decide, by decide, by decide⟩

/-- The path of the `directory` goes back only where the root does. -/
theorem forward_directory {root : String} (forward : ".." ∉ Path.names root) :
    ".." ∉ Path.names (directory root) := by
  rw [directory, isPlain_programs.names_join, isPlain_stache.names_join]
  simpa using forward

/-- No file is written first under the `fileName` of a program. -/
theorem temporaryName_ne_fileName (left right : ContentHash) :
    fileName left ++ ".tmp" ≠ fileName right := by
  intro same
  have lengths := congrArg String.utf8ByteSize same
  rw [utf8ByteSize_temporaryName, utf8ByteSize_fileName] at lengths
  cases lengths

end Artifact

end Mustache
