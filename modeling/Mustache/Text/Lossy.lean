/-!
# Bytes as text

The text of bytes that may be no UTF-8: each longest piece that begins a character but does not
complete it, and each byte that begins none, becomes the replacement character.
-/

namespace Mustache.Text

/-- The range of the second byte and the number of bytes of a character that starts with a
byte, unless the byte starts none or is a character by itself. -/
def sequenceOf? (lead : UInt8) : Option (UInt8 × UInt8 × Nat) :=
  if 0xc2 ≤ lead && lead ≤ 0xdf then some (0x80, 0xbf, 2)
  else if lead == 0xe0 then some (0xa0, 0xbf, 3)
  else if lead == 0xed then some (0x80, 0x9f, 3)
  else if 0xe1 ≤ lead && lead ≤ 0xef then some (0x80, 0xbf, 3)
  else if lead == 0xf0 then some (0x90, 0xbf, 4)
  else if lead == 0xf4 then some (0x80, 0x8f, 4)
  else if 0xf1 ≤ lead && lead ≤ 0xf3 then some (0x80, 0xbf, 4)
  else none

/-- How many of the bytes after a leading byte belong to its character: the next `count` bytes
as far as they are in range, the first of them in a range of its own. -/
def continuationLength (low high : UInt8) : Nat → List UInt8 → Nat
  | count + 1, byte :: rest =>
    if low ≤ byte && byte ≤ high then continuationLength 0x80 0xbf count rest + 1 else 0
  | _, _ => 0

/-- The character of a sequence of bytes that is complete. -/
def characterOf (lead : UInt8) (continuation : List UInt8) : Char :=
  let leadBits := match continuation.length with
    | 0 => lead.toNat
    | 1 => lead.toNat % 0x20
    | 2 => lead.toNat % 0x10
    | _ => lead.toNat % 0x08
  Char.ofNat (continuation.foldl (fun code byte => code * 0x40 + byte.toNat % 0x40) leadBits)

/-- The characters of bytes, with the replacement character where they are no UTF-8. -/
def decodeLossy (bytes : List UInt8) : List Char :=
  match bytes with
  | [] => []
  | lead :: rest =>
    if lead < 0x80 then Char.ofNat lead.toNat :: decodeLossy rest
    else
      match sequenceOf? lead with
      | none => '\ufffd' :: decodeLossy rest
      | some (low, high, size) =>
        let length := continuationLength low high (size - 1) rest
        let character :=
          if length + 1 = size then characterOf lead (rest.take length) else '\ufffd'
        character :: decodeLossy (rest.drop length)
  termination_by bytes.length
  decreasing_by all_goals simp only [List.length_cons, List.length_drop]; omega

/-- The text of bytes, with the replacement character where they are no UTF-8. -/
def lossy (bytes : ByteArray) : String :=
  match String.fromUTF8? bytes with
  | some text => text
  | none => String.ofList (decodeLossy bytes.data.toList)

end Mustache.Text
