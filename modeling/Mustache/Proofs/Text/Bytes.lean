import Mathlib.Data.List.Basic

/-!
# The bytes of texts

A character of ASCII has one byte, its code, and the bytes of all others are beyond ASCII. So a
text with no byte beyond ASCII has the codes of its characters for bytes, one each.
-/

namespace Mustache.Text

/-- A character of ASCII has one byte, its code. -/
theorem utf8EncodeChar_of_lt {character : Char} (small : character.toNat < 128) :
    String.utf8EncodeChar character = [UInt8.ofNat character.toNat] := by
  have small : character.val.toNat ≤ 127 := Nat.le_of_lt_succ small
  simp only [String.utf8EncodeChar, if_pos small]
  rfl

/-- The bytes of other characters are beyond ASCII. -/
theorem le_of_mem_utf8EncodeChar {character : Char} (large : 128 ≤ character.toNat) {byte : UInt8}
    (member : byte ∈ String.utf8EncodeChar character) : 128 ≤ byte.toNat := by
  have large : ¬ character.val.toNat ≤ 127 := Nat.not_le.2 large
  simp only [String.utf8EncodeChar, if_neg large] at member
  repeat' split at member
  all_goals
    simp only [List.mem_cons, List.not_mem_nil, or_false] at member
    rcases member with rfl | rfl | rfl | rfl
    all_goals
      rw [UInt8.toNat_ofNat']
      omega

/-- The bytes of a text are those of its characters. -/
theorem toList_data_toByteArray (text : String) :
    text.toByteArray.data.toList = text.toList.flatMap String.utf8EncodeChar := by
  conv => lhs; rw [← String.ofList_toList (s := text), String.toByteArray_ofList]
  rw [List.utf8Encode, List.data_toByteArray]

/-- A text has as many bytes as its size tells. -/
theorem length_toByteArray (text : String) :
    text.toByteArray.data.toList.length = text.utf8ByteSize := by
  rw [Array.length_toList, ByteArray.size_data, String.size_toByteArray]

/-- A character none of whose bytes is beyond ASCII is a character of ASCII. -/
theorem lt_of_forall_utf8EncodeChar {character : Char}
    (small : ∀ byte ∈ String.utf8EncodeChar character, byte.toNat < 128) :
    character.toNat < 128 := by
  by_contra large
  obtain ⟨byte, member⟩ : ∃ byte, byte ∈ String.utf8EncodeChar character := by
    apply List.exists_mem_of_length_pos
    rw [String.length_utf8EncodeChar]
    exact character.utf8Size_pos
  exact absurd (le_of_mem_utf8EncodeChar (Nat.le_of_not_lt large) member)
    (Nat.not_le.2 (small byte member))

/-- Where no byte is beyond ASCII, each character has one byte, its code. -/
theorem flatMap_utf8EncodeChar_of_forall_lt {characters : List Char}
    (small : ∀ byte ∈ characters.flatMap String.utf8EncodeChar, byte.toNat < 128) :
    (∀ character ∈ characters, character.toNat < 128) ∧
      characters.flatMap String.utf8EncodeChar =
        characters.map fun character => UInt8.ofNat character.toNat := by
  have ascii : ∀ character ∈ characters, character.toNat < 128 := fun character member =>
    lt_of_forall_utf8EncodeChar fun byte inside =>
      small byte (List.mem_flatMap_of_mem member inside)
  refine ⟨ascii, ?_⟩
  rw [List.map_eq_flatMap]
  exact List.flatMap_congr fun character member => utf8EncodeChar_of_lt (ascii character member)

end Mustache.Text
