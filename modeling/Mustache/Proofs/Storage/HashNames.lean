import Mustache.Proofs.Hash.Spelling
import Mustache.Proofs.Storage.Artifact

/-!
# Hashes in names of files

A hash and its text stand for each other, whatever hash or text it is, so the file of a program
has a path that no other program's file has (`hash_texts_correspond`).
-/

namespace Mustache

namespace Artifact

/-- The last of the names that lead to a program's file is its `fileName`. -/
theorem names_path (root : String) (hash : ContentHash) :
    Path.names (path root hash) = Path.names (directory root) ++ [fileName hash] := by
  rw [path_eq_join, (isPlain_fileName hash).names_join]

/-- The names along the `path` of a program's file tell the hash. -/
theorem names_path_injective (root : String) :
    Function.Injective fun hash => Path.names (path root hash) := by
  intro left right same
  simp only [names_path] at same
  exact fileName_inj (List.append_singleton_inj.1 same).2

end Artifact

/-- Hashes and their texts stand for each other, by `ContentHash.text` and `ContentHash.parse`.
Every hash is written as sixty-four lower-case digits, two for each byte, and read back from them. A
text is taken for a hash exactly if it spells one, in digits of either case, and the hash is then
written as the text in lower case. Any other text is turned down with the one thing that is said
about it. So the files of different hashes below one root have different paths, and the names that
lead to them differ too. -/
theorem hash_texts_correspond :
    (∀ hash : ContentHash,
      ContentHash.parse hash.text = .ok hash ∧
      hash.text.length = 64 ∧ hash.text.toList ⊆ "0123456789abcdef".toList ∧
      ∀ place : Nat,
        hash.text.toList[2 * place]? =
            hash.bytes[place]?.map (fun byte => Nat.digitChar (byte.toNat / 16)) ∧
          hash.text.toList[2 * place + 1]? =
            hash.bytes[place]?.map fun byte => Nat.digitChar (byte.toNat % 16)) ∧
    (∀ text : String, (∃ hash, ContentHash.parse text = .ok hash) ↔ SpellsHash text) ∧
    (∀ (text : String) (hash : ContentHash), ContentHash.parse text = .ok hash ↔
      SpellsHash text ∧ hash.text = text.toLower) ∧
    (∀ (text : String) (error : CompileError), ContentHash.parse text = .error error ↔
      ∃ reason, HashTextError.SaidOf text reason ∧ error = .invalidHash text reason) ∧
    ∀ root : String, Function.Injective (Artifact.path root) ∧
      Function.Injective fun hash => Path.names (Artifact.path root hash) := by
  refine ⟨fun hash => ⟨hash.parse_text, hash.length_text, ?_, fun place => ?_⟩,
    fun _ => ContentHash.exists_parse_eq_ok_iff, fun _ _ => ContentHash.parse_eq_ok_iff,
    fun _ _ => ContentHash.parse_eq_error_iff,
    fun root => ⟨?_, Artifact.names_path_injective root⟩⟩
  · rw [ContentHash.text, String.toList_ofList]
    exact fun character => Text.Hex.mem_encode
  · rw [ContentHash.text, String.toList_ofList]
    exact Text.Hex.getElem?_encode hash.bytes place
  · intro left right same
    exact Artifact.names_path_injective root (congrArg Path.names same)

end Mustache
