import Mustache.Compile.Error
import Mustache.Proofs.Hash.HexText
import Mustache.Proofs.Text.Bytes

/-!
# Which texts spell a hash

A text spells a hash if it has sixty-four bytes and all of them are hexadecimal digits of either
case. It is read as the hash that is written as the text in lower case
(`ContentHash.ofHex_eq_ok_iff`). About any other text one thing is said, the number of its bytes
before the digits, and of several bytes that are no digits the first
(`ContentHash.ofHex_eq_error_iff`).
-/

namespace Mustache

namespace Text.Hex

/-- The hexadecimal digits of either case. -/
def digits : List Char := "0123456789ABCDEFabcdef".toList

/-- A byte is the code of a hexadecimal digit. -/
def IsDigit (code : UInt8) : Prop :=
  code ∈ digits.map Char.toUInt8

instance : DecidablePred IsDigit := fun code =>
  inferInstanceAs (Decidable (code ∈ digits.map Char.toUInt8))

/-- What is found of all digits by looking at one after another holds of each. -/
theorem forall_mem_digits {holds : Char → Prop} [DecidablePred holds]
    (table : digits.all (holds ·) = true) : ∀ character ∈ digits, holds character :=
  fun character member => of_decide_eq_true (List.all_eq_true.1 table character member)

/-- Digits are characters of ASCII. -/
theorem toNat_lt_of_mem_digits : ∀ character ∈ digits, character.toNat < 128 :=
  forall_mem_digits (by decide)

/-- The codes of digits are codes of ASCII. -/
theorem IsDigit.toNat_lt {code : UInt8} (isDigit : IsDigit code) : code.toNat < 128 := by
  obtain ⟨character, member, rfl⟩ := List.mem_map.1 isDigit
  have small := toNat_lt_of_mem_digits character member
  have code : character.toUInt8.toNat = character.toNat % 256 := UInt8.toNat_ofNat'
  omega

/-- A code that is no digit stands for no number by `value?`. -/
theorem value?_of_not_isDigit {code : UInt8} (other : ¬ IsDigit code) : value? code = none := by
  have codes : ∀ number < 256, IsDigit (UInt8.ofNat number) ∨
      value? (UInt8.ofNat number) = none := by decide +kernel
  rcases codes code.toNat code.toNat_lt with digit | none
  · rw [UInt8.ofNat_toNat] at digit
    exact absurd digit other
  · rwa [UInt8.ofNat_toNat] at none

/-- A digit of either case stands for a number by `value?`, and `digit` writes that number as the
digit in lower case. -/
theorem exists_value_of_mem_digits : ∀ character ∈ digits, ∃ number < 16,
    value? character.toUInt8 = some (UInt8.ofNat number) ∧
      digit number = character.toLower :=
  forall_mem_digits (by decide)

/-- A digit stands for a number by `value?`. -/
theorem IsDigit.exists_value {code : UInt8} (isDigit : IsDigit code) :
    ∃ number, value? code = some number := by
  obtain ⟨character, member, rfl⟩ := List.mem_map.1 isDigit
  obtain ⟨number, _, stands, _⟩ := exists_value_of_mem_digits character member
  exact ⟨_, stands⟩

/-- Sixteen times a number and another number make the byte that is written with the digits of
both. -/
theorem encodeByte_pair {high low : Nat} (highSmall : high < 16) (lowSmall : low < 16) :
    encodeByte (UInt8.ofNat high * 16 + UInt8.ofNat low) = [digit high, digit low] := by
  have number : (UInt8.ofNat high * 16 + UInt8.ofNat low).toNat = high * 16 + low := by
    simp only [UInt8.toNat_add, UInt8.toNat_mul, UInt8.toNat_ofNat', UInt8.reduceToNat]
    omega
  have higher : (high * 16 + low) / 16 = high := by omega
  have lower : (high * 16 + low) % 16 = low := by omega
  rw [encodeByte, number, higher, digit_mod (high * 16 + low), lower]

/-- Pairs of digits are read as bytes by `decodeFrom`, and `encode` writes these as the digits in
lower case. -/
theorem exists_decodeFrom (position : Nat) : ∀ characters : List Char, characters ⊆ digits →
    characters.length % 2 = 0 →
    ∃ bytes, decodeFrom position (characters.map Char.toUInt8) = .ok bytes ∧
      encode bytes = characters.map Char.toLower
  | [], _, _ => ⟨[], rfl, rfl⟩
  | high :: low :: rest, inside, even => by
    rw [List.cons_subset, List.cons_subset] at inside
    obtain ⟨highMember, lowMember, restInside⟩ := inside
    obtain ⟨highNumber, highSmall, highStands, highWritten⟩ :=
      exists_value_of_mem_digits high highMember
    obtain ⟨lowNumber, lowSmall, lowStands, lowWritten⟩ :=
      exists_value_of_mem_digits low lowMember
    have restEven : rest.length % 2 = 0 := by
      rw [List.length_cons, List.length_cons] at even
      omega
    obtain ⟨bytes, read, written⟩ := exists_decodeFrom (position + 2) rest restInside restEven
    refine ⟨(UInt8.ofNat highNumber * 16 + UInt8.ofNat lowNumber) :: bytes, ?_, ?_⟩
    · simp only [List.map_cons, decodeFrom, highStands, lowStands, read]
    · rw [encode, List.flatMap_cons, ← encode, written, encodeByte_pair highSmall lowSmall,
        highWritten, lowWritten]
      rfl

/-- Reading pairs of digits with `decodeFrom` ends at the first code that is no digit. -/
theorem decodeFrom_of_other {code : UInt8} {after : List UInt8} (other : ¬ IsDigit code)
    (position : Nat) : ∀ before : List UInt8, (∀ earlier ∈ before, IsDigit earlier) →
    (before ++ code :: after).length % 2 = 0 →
    decodeFrom position (before ++ code :: after) = .error (code, position + before.length)
  | [], _, even => by
    -- The number of codes is even, so another one follows.
    obtain _ | ⟨low, rest⟩ := after
    · cases even
    · simp only [List.nil_append, decodeFrom, value?_of_not_isDigit other, List.length_nil,
        Nat.add_zero]
  | [high], digits, _ => by
    obtain ⟨number, stands⟩ := (digits high List.mem_cons_self).exists_value
    simp only [List.cons_append, List.nil_append, decodeFrom, stands, value?_of_not_isDigit other,
      List.length_singleton]
  | high :: low :: before, digits, even => by
    rw [List.forall_mem_cons, List.forall_mem_cons] at digits
    obtain ⟨highDigit, lowDigit, earlier⟩ := digits
    obtain ⟨highNumber, highStands⟩ := highDigit.exists_value
    obtain ⟨lowNumber, lowStands⟩ := lowDigit.exists_value
    have restEven : (before ++ code :: after).length % 2 = 0 := by
      rw [List.cons_append, List.cons_append, List.length_cons, List.length_cons] at even
      omega
    have unread := decodeFrom_of_other other (position + 2) before earlier restEven
    have place : position + 2 + before.length = position + (before.length + 1 + 1) := by omega
    simp only [List.cons_append, decodeFrom, highStands, lowStands, unread, List.length_cons, place]

/-- Characters whose bytes are all digits are digits themselves, one byte each. -/
theorem characters_of_isDigit {characters : List Char}
    (codes : ∀ code ∈ characters.flatMap String.utf8EncodeChar, IsDigit code) :
    characters ⊆ digits ∧
      characters.flatMap String.utf8EncodeChar = characters.map Char.toUInt8 := by
  obtain ⟨ascii, single⟩ := flatMap_utf8EncodeChar_of_forall_lt fun code member =>
    (codes code member).toNat_lt
  refine ⟨fun character member => ?_, single⟩
  rw [single] at codes
  obtain ⟨digit, isDigit, same⟩ := List.mem_map.1 (codes _ (List.mem_map_of_mem member))
  have numbers : digit.toNat = character.toNat := by
    have small := ascii character member
    have digitSmall := toNat_lt_of_mem_digits digit isDigit
    have remainders : (UInt8.ofNat digit.toNat).toNat = (UInt8.ofNat character.toNat).toNat :=
      congrArg UInt8.toNat same
    rw [UInt8.toNat_ofNat', UInt8.toNat_ofNat'] at remainders
    omega
  rwa [← Char.toNat_inj.1 numbers]

end Text.Hex

/-- A text spells a hash: its UTF-8 form has sixty-four bytes, and all of them are hexadecimal
digits of either case. -/
structure SpellsHash (text : String) : Prop where
  /-- There are two bytes for each of the hash's. -/
  size : text.utf8ByteSize = 64
  /-- All bytes are digits. -/
  digits : ∀ code ∈ text.toByteArray.data.toList, Text.Hex.IsDigit code

/-- What is said about a text that spells no hash. The number of its bytes comes before the digits:
first whether it is odd, then whether it is sixty-four. Of several bytes that are no digits the
first is named, with its position. -/
inductive HashTextError.SaidOf (text : String) : HashTextError → Prop where
  /-- The number of bytes is odd. -/
  | oddLength (odd : text.utf8ByteSize % 2 = 1) : SaidOf text .oddLength
  /-- The number of bytes is even, and another one than sixty-four. -/
  | wrongLength (even : text.utf8ByteSize % 2 = 0) (wrong : text.utf8ByteSize ≠ 64) :
    SaidOf text .wrongLength
  /-- There are sixty-four bytes, and after some digits one that is no digit. -/
  | invalidDigit {before after : List UInt8} {code : UInt8} (size : text.utf8ByteSize = 64)
      (parts : text.toByteArray.data.toList = before ++ code :: after)
      (digits : ∀ earlier ∈ before, Text.Hex.IsDigit earlier)
      (other : ¬ Text.Hex.IsDigit code) :
    SaidOf text (.invalidDigit code before.length)

/-- A text spells a hash, or something is said about it. -/
theorem spellsHash_or_saidOf (text : String) :
    SpellsHash text ∨ ∃ error, HashTextError.SaidOf text error := by
  rcases Nat.mod_two_eq_zero_or_one text.utf8ByteSize with even | odd
  · by_cases size : text.utf8ByteSize = 64
    · cases found : text.toByteArray.data.toList.find? fun code => ¬ Text.Hex.IsDigit code with
      | none =>
        rw [List.find?_eq_none] at found
        exact .inl ⟨size, by simpa using found⟩
      | some code =>
        obtain ⟨other, before, after, parts, digits⟩ := List.find?_eq_some_iff_append.1 found
        exact .inr ⟨_, .invalidDigit size parts (by simpa using digits) (by simpa using other)⟩
    · exact .inr ⟨_, .wrongLength even size⟩
  · exact .inr ⟨_, .oddLength odd⟩

namespace ContentHash

open Text.Hex

/-- A text that spells a hash (`SpellsHash`) is read by `ofHex` as a hash that is written as the
text in lower case. -/
theorem exists_ofHex {text : String} (spells : SpellsHash text) :
    ∃ hash : ContentHash, ofHex text = .ok hash ∧ hash.text = text.toLower := by
  have codes := spells.digits
  have long := (Text.length_toByteArray text).trans spells.size
  rw [Text.toList_data_toByteArray] at codes
  obtain ⟨inside, single⟩ := characters_of_isDigit codes
  have bytes : text.toByteArray.data.toList = text.toList.map Char.toUInt8 :=
    (Text.toList_data_toByteArray text).trans single
  have even : text.toList.length % 2 = 0 := by
    rw [bytes, List.length_map] at long
    omega
  obtain ⟨read, decoded, written⟩ := exists_decodeFrom 0 text.toList inside even
  rw [← bytes] at decoded
  have length_read : read.length = 32 := by
    rw [length_decodeFrom decoded, long]
  refine ⟨⟨read, length_read⟩, ofHex_of_decodeFrom long decoded, ?_⟩
  have lower : text.toLower.toList = text.toList.map Char.toLower := String.toList_map
  rw [ContentHash.text, written, ← lower, String.ofList_toList]

/-- What is to be said of a text (`HashTextError.SaidOf`) is the error with which `ofHex` refuses
it. -/
theorem ofHex_of_saidOf {text : String} {error : HashTextError}
    (said : HashTextError.SaidOf text error) : ofHex text = .error error := by
  have long := Text.length_toByteArray text
  cases said with
  | oddLength odd =>
    unfold ofHex
    simp only
    rw [if_pos (by omega)]
  | wrongLength even wrong =>
    unfold ofHex
    simp only
    rw [if_neg (by omega), dif_neg (by omega)]
  | @invalidDigit before after code size parts digits other =>
    apply ofHex_of_decodeFrom_error (long.trans size)
    rw [parts, size] at long
    rw [parts, decodeFrom_of_other other 0 before digits (by omega), Nat.zero_add]

/-- A text is read as a hash by `ofHex` exactly if it spells one, and the `text` of that hash is the
text in lower case. -/
theorem ofHex_eq_ok_iff {text : String} {hash : ContentHash} :
    ofHex text = .ok hash ↔ SpellsHash text ∧ hash.text = text.toLower := by
  constructor
  · intro read
    rcases spellsHash_or_saidOf text with spells | ⟨error, said⟩
    · obtain ⟨other, readOther, written⟩ := exists_ofHex spells
      cases read.symm.trans readOther
      exact ⟨spells, written⟩
    · cases read.symm.trans (ofHex_of_saidOf said)
  · rintro ⟨spells, written⟩
    obtain ⟨other, readOther, writtenOther⟩ := exists_ofHex spells
    rw [readOther, text_injective (writtenOther.trans written.symm)]

/-- A text is refused by `ofHex` exactly with what is to be said of it (`HashTextError.SaidOf`). -/
theorem ofHex_eq_error_iff {text : String} {error : HashTextError} :
    ofHex text = .error error ↔ HashTextError.SaidOf text error := by
  refine ⟨fun refused => ?_, ofHex_of_saidOf⟩
  rcases spellsHash_or_saidOf text with spells | ⟨other, said⟩
  · obtain ⟨hash, read, _⟩ := exists_ofHex spells
    cases refused.symm.trans read
  · cases refused.symm.trans (ofHex_of_saidOf said)
    exact said

-- The number of bytes comes first, and a character beyond ASCII is named by its first byte.
example : ofHex "zz9" = .error .oddLength := by decide

example : ofHex "7706f643f4c419a620f2d602282F5C91cd1e72c15c32a5131a0e0a853ed482é" =
    .error (.invalidDigit 0xC3 62) := by decide

/-- A text is taken for a hash by `ContentHash.parse` exactly if it spells one, and the hash is
written as the text in lower case. -/
theorem parse_eq_ok_iff {text : String} {hash : ContentHash} :
    parse text = .ok hash ↔ SpellsHash text ∧ hash.text = text.toLower := by
  rw [← ofHex_eq_ok_iff, parse]
  cases ofHex text with
  | error error => exact ⟨nofun, nofun⟩
  | ok read => rw [Except.mapError, Except.ok.injEq, Except.ok.injEq]

/-- A text is turned down by `ContentHash.parse` exactly with what is to be said of it
(`HashTextError.SaidOf`). -/
theorem parse_eq_error_iff {text : String} {error : CompileError} :
    parse text = .error error ↔
      ∃ reason, HashTextError.SaidOf text reason ∧ error = .invalidHash text reason := by
  simp only [← ofHex_eq_error_iff]
  rw [parse]
  cases ofHex text with
  | error reason =>
    constructor
    · intro refused
      cases refused
      exact ⟨reason, rfl, rfl⟩
    · rintro ⟨_, ⟨⟩, rfl⟩
      rfl
  | ok read => exact ⟨nofun, nofun⟩

/-- A text is taken for some hash by `ContentHash.parse` exactly if it spells one. -/
theorem exists_parse_eq_ok_iff {text : String} :
    (∃ hash, parse text = .ok hash) ↔ SpellsHash text := by
  constructor
  · rintro ⟨hash, read⟩
    exact (parse_eq_ok_iff.1 read).1
  · intro spells
    obtain ⟨hash, _, written⟩ := exists_ofHex spells
    exact ⟨hash, parse_eq_ok_iff.2 ⟨spells, written⟩⟩

/-- The `text` of a hash is taken for the hash by `ContentHash.parse`. -/
theorem parse_text (hash : ContentHash) : parse hash.text = .ok hash := by
  rw [parse, ofHex_text]
  rfl

end ContentHash

end Mustache
