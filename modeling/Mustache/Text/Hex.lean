/-!
# Hexadecimal digits

Bytes as pairs of lower-case digits. Reading takes digits of either case.
-/

namespace Mustache.Text.Hex

/-- The lower-case digit of a number below sixteen. -/
def digit (number : Nat) : Char :=
  Nat.digitChar (number % 16)

/-- The number that a digit of either case stands for, the digit given by its code. -/
def value? (code : UInt8) : Option UInt8 :=
  if 0x30 ≤ code && code ≤ 0x39 then some (code - 0x30)
  else if 0x41 ≤ code && code ≤ 0x46 then some (code - 0x41 + 10)
  else if 0x61 ≤ code && code ≤ 0x66 then some (code - 0x61 + 10)
  else none

/-- The two digits of a byte, the higher first. -/
def encodeByte (byte : UInt8) : List Char :=
  [digit (byte.toNat / 16), digit byte.toNat]

/-- The digits of a sequence of bytes. -/
def encode (bytes : List UInt8) : List Char :=
  bytes.flatMap encodeByte

/-- The bytes that pairs of digits stand for, or the first code that is no digit and its
position; `position` is that of the first code. -/
def decodeFrom (position : Nat) : List UInt8 → Except (UInt8 × Nat) (List UInt8)
  | high :: low :: rest =>
    match value? high with
    | none => .error (high, position)
    | some highValue =>
      match value? low with
      | none => .error (low, position + 1)
      | some lowValue =>
        match decodeFrom (position + 2) rest with
        | .error fault => .error fault
        | .ok bytes => .ok ((highValue * 16 + lowValue) :: bytes)
  | _ => .ok []

/-- Two digits make one byte of what `decodeFrom` reads. -/
theorem length_decodeFrom {position : Nat} {codes bytes : List UInt8}
    (decoded : decodeFrom position codes = .ok bytes) : bytes.length = codes.length / 2 := by
  match codes with
  | [] | [_] =>
    simp only [decodeFrom, Except.ok.injEq] at decoded
    subst decoded
    simp
  | high :: low :: rest =>
    simp only [decodeFrom] at decoded
    split at decoded
    · simp at decoded
    · split at decoded
      · simp at decoded
      · split at decoded
        · simp at decoded
        · next following =>
          simp only [Except.ok.injEq] at decoded
          subst decoded
          have shorter := length_decodeFrom following
          simp only [List.length_cons]
          omega

end Mustache.Text.Hex
