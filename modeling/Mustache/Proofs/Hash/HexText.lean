import Mustache.Hash.ContentHash
import Mustache.Proofs.Text.Bytes

/-!
# Hashes and their text

The written form of a hash is read back as that hash. Digits are characters of one byte, so what
is read are the codes of the digits that were written.
-/

namespace Mustache

namespace Text.Hex

/-- The code of the digit of a number. -/
def digitCode (number : Nat) : UInt8 :=
  (digit number).toUInt8

/-- A `digit` is a character of one byte, and by `value?` its code tells the number. -/
theorem digit_spec : ∀ number < 16,
    String.utf8EncodeChar (digit number) = [digitCode number] ∧
      value? (digitCode number) = some (UInt8.ofNat number) := by
  decide

theorem digit_mod (number : Nat) : digit number = digit (number % 16) := by
  rw [digit, digit, Nat.mod_mod]

/-- The codes of the digits of a byte. -/
def byteCodes (byte : UInt8) : List UInt8 :=
  [digitCode (byte.toNat / 16), digitCode (byte.toNat % 16)]

/-- The bytes of the digits that `encode` writes are their codes, `byteCodes`. -/
theorem utf8Encode_encode (bytes : List UInt8) :
    (encode bytes).flatMap String.utf8EncodeChar = bytes.flatMap byteCodes := by
  induction bytes with
  | nil => rfl
  | cons byte rest inductionHypothesis =>
    have high := (digit_spec (byte.toNat / 16) (by have := byte.toNat_lt; omega)).1
    have low := (digit_spec (byte.toNat % 16) (Nat.mod_lt _ (by decide))).1
    rw [encode, List.flatMap_cons, List.flatMap_append, ← encode, inductionHypothesis,
      List.flatMap_cons]
    congr 1
    rw [encodeByte, digit_mod byte.toNat, List.flatMap_cons, List.flatMap_cons, high, low]
    rfl

/-- The codes of the digits of some bytes are read back as these bytes by `decodeFrom`. -/
theorem decodeFrom_byteCodes (position : Nat) (bytes : List UInt8) :
    decodeFrom position (bytes.flatMap byteCodes) = .ok bytes := by
  induction bytes generalizing position with
  | nil => rfl
  | cons byte rest inductionHypothesis =>
    have high := (digit_spec (byte.toNat / 16) (by have := byte.toNat_lt; omega)).2
    have low := (digit_spec (byte.toNat % 16) (Nat.mod_lt _ (by decide))).2
    have whole : UInt8.ofNat (byte.toNat / 16) * 16 + UInt8.ofNat (byte.toNat % 16) = byte := by
      rw [← UInt8.toNat_inj]
      have := byte.toNat_lt
      simp only [UInt8.toNat_add, UInt8.toNat_mul, UInt8.toNat_ofNat', UInt8.reduceToNat]
      omega
    simp only [List.flatMap_cons, byteCodes, List.cons_append, List.nil_append, decodeFrom, high,
      low]
    rw [inductionHypothesis, whole]

/-- What has two parts for each byte is twice as long as the bytes. -/
theorem length_flatMap_pairs {α : Type} {pair : UInt8 → List α}
    (pairs : ∀ byte, (pair byte).length = 2) (bytes : List UInt8) :
    (bytes.flatMap pair).length = 2 * bytes.length := by
  induction bytes with
  | nil => rfl
  | cons byte rest inductionHypothesis =>
    rw [List.flatMap_cons, List.length_append, inductionHypothesis, pairs, List.length_cons]
    omega

/-- The digits that `encode` writes stand one pair for each byte, the higher digit first. -/
theorem getElem?_encode (bytes : List UInt8) (place : Nat) :
    (encode bytes)[2 * place]? =
        bytes[place]?.map (fun byte => Nat.digitChar (byte.toNat / 16)) ∧
      (encode bytes)[2 * place + 1]? =
        bytes[place]?.map fun byte => Nat.digitChar (byte.toNat % 16) := by
  induction bytes generalizing place with
  | nil => exact ⟨rfl, rfl⟩
  | cons byte rest inductionHypothesis =>
    have split : encode (byte :: rest) =
        digit (byte.toNat / 16) :: digit byte.toNat :: encode rest := rfl
    rw [split]
    cases place with
    | zero =>
      have small : byte.toNat / 16 % 16 = byte.toNat / 16 := by
        have := byte.toNat_lt
        omega
      have high : digit (byte.toNat / 16) = Nat.digitChar (byte.toNat / 16) := by
        rw [digit, small]
      exact ⟨congrArg some high, rfl⟩
    | succ place => exact inductionHypothesis place

/-- The digits that `encode` writes are the sixteen in lower case. -/
theorem mem_encode {bytes : List UInt8} {character : Char} (member : character ∈ encode bytes) :
    character ∈ "0123456789abcdef".toList := by
  have digits : ∀ number < 16, digit number ∈ "0123456789abcdef".toList := by decide
  obtain ⟨byte, _, pair⟩ := List.mem_flatMap.1 member
  rcases List.mem_cons.1 pair with rfl | low
  · exact digits _ (by have := byte.toNat_lt; omega)
  · rw [List.mem_singleton.1 low, digit_mod]
    exact digits _ (Nat.mod_lt _ (by decide))

end Text.Hex

namespace ContentHash

open Text.Hex

/-- The bytes of `ContentHash.text` are the codes of its digits. -/
theorem toByteArray_text (hash : ContentHash) :
    hash.text.toByteArray.data.toList = hash.bytes.flatMap byteCodes := by
  rw [Text.toList_data_toByteArray, text, String.toList_ofList, utf8Encode_encode]

/-- The text of a hash has two codes for each byte. -/
theorem length_toByteArray_text (hash : ContentHash) :
    hash.text.toByteArray.data.toList.length = 64 := by
  rw [toByteArray_text, length_flatMap_pairs fun _ => rfl, hash.length_bytes]

/-- The text of a hash has sixty-four bytes. -/
theorem utf8ByteSize_text (hash : ContentHash) : hash.text.utf8ByteSize = 64 := by
  rw [← Text.length_toByteArray, length_toByteArray_text]

/-- The text of a hash has sixty-four characters. -/
theorem length_text (hash : ContentHash) : hash.text.length = 64 := by
  rw [← String.length_toList, text, String.toList_ofList, encode,
    length_flatMap_pairs fun _ => rfl, hash.length_bytes]

section Reading

variable {digits : String}

/-- A text of the right length is read by `ofHex` as the hash whose bytes `decodeFrom` finds in it.
-/
theorem ofHex_of_decodeFrom {hash : ContentHash}
    (long : digits.toByteArray.data.toList.length = 64)
    (read : decodeFrom 0 digits.toByteArray.data.toList = .ok hash.bytes) :
    ofHex digits = .ok hash := by
  unfold ofHex
  simp only
  rw [if_neg (by omega), dif_pos long]
  split
  · next unread =>
    rw [read] at unread
    cases unread
  · next bytes found =>
    rw [read, Except.ok.injEq] at found
    subst found
    rfl

/-- A text of the right length is refused by `ofHex` where `decodeFrom` comes to a byte that is no
digit. -/
theorem ofHex_of_decodeFrom_error {code : UInt8} {position : Nat}
    (long : digits.toByteArray.data.toList.length = 64)
    (unread : decodeFrom 0 digits.toByteArray.data.toList = .error (code, position)) :
    ofHex digits = .error (.invalidDigit code position) := by
  unfold ofHex
  simp only
  rw [if_neg (by omega), dif_pos long]
  split
  · next found =>
    rw [unread, Except.error.injEq, Prod.mk.injEq] at found
    obtain ⟨rfl, rfl⟩ := found
    rfl
  · next read =>
    rw [unread] at read
    cases read

end Reading

/-- The `text` of a hash is read back as the hash by `ofHex`. -/
theorem ofHex_text (hash : ContentHash) : ofHex hash.text = .ok hash := by
  apply ofHex_of_decodeFrom hash.length_toByteArray_text
  rw [toByteArray_text, decodeFrom_byteCodes]

/-- Different hashes have different texts by `ContentHash.text`. -/
theorem text_injective : Function.Injective ContentHash.text := by
  intro left right same
  have read := ofHex_text left
  rw [same, ofHex_text, Except.ok.injEq] at read
  exact read.symm

end ContentHash

end Mustache
