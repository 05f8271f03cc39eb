/-!
# SHA-256

The digest of FIPS 180-4: a message is padded to blocks of 64 bytes, each block is spread over
64 words, and 64 rounds mix the words into a state of eight.
-/

namespace Mustache.Sha256

/-- The eight words that the rounds change. -/
structure State where
  /-- The first word. -/
  a : UInt32
  /-- The second word. -/
  b : UInt32
  /-- The third word. -/
  c : UInt32
  /-- The fourth word. -/
  d : UInt32
  /-- The fifth word. -/
  e : UInt32
  /-- The sixth word. -/
  f : UInt32
  /-- The seventh word. -/
  g : UInt32
  /-- The eighth word. -/
  h : UInt32

/-- The state before the first block. -/
def initial : State :=
  ⟨0x6a09e667, 0xbb67ae85, 0x3c6ef372, 0xa54ff53a, 0x510e527f, 0x9b05688c, 0x1f83d9ab, 0x5be0cd19⟩

/-- The constant of each round. -/
def roundConstants : List UInt32 := [
  0x428a2f98, 0x71374491, 0xb5c0fbcf, 0xe9b5dba5, 0x3956c25b, 0x59f111f1, 0x923f82a4, 0xab1c5ed5,
  0xd807aa98, 0x12835b01, 0x243185be, 0x550c7dc3, 0x72be5d74, 0x80deb1fe, 0x9bdc06a7, 0xc19bf174,
  0xe49b69c1, 0xefbe4786, 0x0fc19dc6, 0x240ca1cc, 0x2de92c6f, 0x4a7484aa, 0x5cb0a9dc, 0x76f988da,
  0x983e5152, 0xa831c66d, 0xb00327c8, 0xbf597fc7, 0xc6e00bf3, 0xd5a79147, 0x06ca6351, 0x14292967,
  0x27b70a85, 0x2e1b2138, 0x4d2c6dfc, 0x53380d13, 0x650a7354, 0x766a0abb, 0x81c2c92e, 0x92722c85,
  0xa2bfe8a1, 0xa81a664b, 0xc24b8b70, 0xc76c51a3, 0xd192e819, 0xd6990624, 0xf40e3585, 0x106aa070,
  0x19a4c116, 0x1e376c08, 0x2748774c, 0x34b0bcb5, 0x391c0cb3, 0x4ed8aa4a, 0x5b9cca4f, 0x682e6ff3,
  0x748f82ee, 0x78a5636f, 0x84c87814, 0x8cc70208, 0x90befffa, 0xa4506ceb, 0xbef9a3f7, 0xc67178f2]

/-- A word turned right by a number of places. -/
def rotateRight (word places : UInt32) : UInt32 :=
  (word >>> places) ||| (word <<< (32 - places))

/-- The four bytes of a word, the highest first. -/
def wordBytes (word : UInt32) : List UInt8 :=
  [(word >>> 24).toUInt8, (word >>> 16).toUInt8, (word >>> 8).toUInt8, word.toUInt8]

/-- The word of four bytes, the highest first. -/
def wordOfBytes (first second third fourth : UInt8) : UInt32 :=
  (first.toUInt32 <<< 24) ||| (second.toUInt32 <<< 16) ||| (third.toUInt32 <<< 8) |||
    fourth.toUInt32

/-- A message with a one bit, zeros, and its length in bits as eight bytes, so that the whole
is a number of 64-byte blocks. -/
def padded (message : ByteArray) : ByteArray :=
  let zeros := (119 - message.size % 64) % 64
  let bits := message.size * 8
  let lengthBytes := (List.range 8).map fun place => UInt8.ofNat (bits >>> (8 * (7 - place)))
  message ++ ⟨(0x80 :: List.replicate zeros 0 ++ lengthBytes).toArray⟩

/-- The sixteen words of the block that starts at a byte. -/
def blockWords (message : ByteArray) (start : Nat) : Array UInt32 :=
  let byte (index : Nat) : UInt8 := message[index]?.getD 0
  Array.ofFn fun (place : Fin 16) =>
    let index := start + 4 * place.val
    wordOfBytes (byte index) (byte (index + 1)) (byte (index + 2)) (byte (index + 3))

/-- The word of the schedule after those that are known. -/
def nextWord (words : Array UInt32) : UInt32 :=
  let back (distance : Nat) : UInt32 := words.getD (words.size - distance) 0
  let first := back 15
  let last := back 2
  let small := rotateRight first 7 ^^^ rotateRight first 18 ^^^ (first >>> 3)
  let large := rotateRight last 17 ^^^ rotateRight last 19 ^^^ (last >>> 10)
  back 16 + small + back 7 + large

/-- The sixteen words of a block and the forty-eight that follow from them. -/
def schedule (block : Array UInt32) : Array UInt32 :=
  (List.range 48).foldl (fun words _ => words.push (nextWord words)) block

/-- One round, with its constant and its word of the schedule. -/
def round (state : State) (constant word : UInt32) : State :=
  let large := rotateRight state.e 6 ^^^ rotateRight state.e 11 ^^^ rotateRight state.e 25
  let choice := (state.e &&& state.f) ^^^ (~~~state.e &&& state.g)
  let first := state.h + large + choice + constant + word
  let small := rotateRight state.a 2 ^^^ rotateRight state.a 13 ^^^ rotateRight state.a 22
  let majority := (state.a &&& state.b) ^^^ (state.a &&& state.c) ^^^ (state.b &&& state.c)
  ⟨first + (small + majority), state.a, state.b, state.c, state.d + first, state.e, state.f,
    state.g⟩

/-- The state after a block. -/
def compress (state : State) (block : Array UInt32) : State :=
  let mixed := (roundConstants.zip (schedule block).toList).foldl
    (fun current (constant, word) => round current constant word) state
  ⟨state.a + mixed.a, state.b + mixed.b, state.c + mixed.c, state.d + mixed.d,
    state.e + mixed.e, state.f + mixed.f, state.g + mixed.g, state.h + mixed.h⟩

/-- The bytes of a state, word by word. -/
def State.bytes (state : State) : List UInt8 :=
  wordBytes state.a ++ wordBytes state.b ++ wordBytes state.c ++ wordBytes state.d ++
    wordBytes state.e ++ wordBytes state.f ++ wordBytes state.g ++ wordBytes state.h

/-- A state has thirty-two bytes. -/
theorem State.length_bytes (state : State) : state.bytes.length = 32 := rfl

/-- The state after all blocks of a message. -/
def finalState (message : ByteArray) : State :=
  let whole := padded message
  (List.range (whole.size / 64)).foldl
    (fun state index => compress state (blockWords whole (64 * index))) initial

end Mustache.Sha256
