/-
This file computes SHA-256 digests. The message is padded with a one bit, zero
bits and its length in bits to a multiple of 64 bytes. Each block of 64 bytes is
spread over a schedule of 64 words, and 64 rounds mix the schedule into eight
words of state, which start from fixed values. All arithmetic is on 32-bit words
and wraps.
-/

namespace StagedBuilder.Digest256

/-! ### Constants -/

/-- The round constants. -/
def roundConstants : List UInt32 := [
  0x428a2f98, 0x71374491, 0xb5c0fbcf, 0xe9b5dba5, 0x3956c25b, 0x59f111f1, 0x923f82a4, 0xab1c5ed5,
  0xd807aa98, 0x12835b01, 0x243185be, 0x550c7dc3, 0x72be5d74, 0x80deb1fe, 0x9bdc06a7, 0xc19bf174,
  0xe49b69c1, 0xefbe4786, 0x0fc19dc6, 0x240ca1cc, 0x2de92c6f, 0x4a7484aa, 0x5cb0a9dc, 0x76f988da,
  0x983e5152, 0xa831c66d, 0xb00327c8, 0xbf597fc7, 0xc6e00bf3, 0xd5a79147, 0x06ca6351, 0x14292967,
  0x27b70a85, 0x2e1b2138, 0x4d2c6dfc, 0x53380d13, 0x650a7354, 0x766a0abb, 0x81c2c92e, 0x92722c85,
  0xa2bfe8a1, 0xa81a664b, 0xc24b8b70, 0xc76c51a3, 0xd192e819, 0xd6990624, 0xf40e3585, 0x106aa070,
  0x19a4c116, 0x1e376c08, 0x2748774c, 0x34b0bcb5, 0x391c0cb3, 0x4ed8aa4a, 0x5b9cca4f, 0x682e6ff3,
  0x748f82ee, 0x78a5636f, 0x84c87814, 0x8cc70208, 0x90befffa, 0xa4506ceb, 0xbef9a3f7, 0xc67178f2]

/-- The eight words of state. -/
structure State where
  a : UInt32
  b : UInt32
  c : UInt32
  d : UInt32
  e : UInt32
  f : UInt32
  g : UInt32
  h : UInt32

/-- The state before the first block. -/
def initial : State :=
  ⟨0x6a09e667, 0xbb67ae85, 0x3c6ef372, 0xa54ff53a, 0x510e527f, 0x9b05688c, 0x1f83d9ab, 0x5be0cd19⟩

/-! ### Words -/

/-- Rotates a word to the right by fewer than 32 places. -/
def rotate (word : UInt32) (places : UInt32) : UInt32 :=
  (word >>> places) ||| (word <<< (32 - places))

/-- The words of a list of bytes, four bytes each, most significant first. -/
def wordsOf : List UInt8 → List UInt32
  | first :: second :: third :: fourth :: rest =>
    (((first.toUInt32 <<< 24) ||| (second.toUInt32 <<< 16))
      ||| ((third.toUInt32 <<< 8) ||| fourth.toUInt32)) :: wordsOf rest
  | _ => []

/-- The bytes of a number, most significant first. -/
def bytesOf (count : Nat) (value : Nat) : List UInt8 :=
  ((List.range count).map fun place => UInt8.ofNat (value / Nat.pow 256 place % 256)).reverse

/-- A message with its padding. -/
def padded (message : List UInt8) : List UInt8 :=
  message ++ 0x80 :: (List.replicate ((119 - message.length % 64) % 64) 0
    ++ bytesOf 8 (8 * message.length))

/-! ### Blocks -/

/-- Adds the next word of a schedule, which is kept with the latest word first. -/
def extendSchedule (schedule : List UInt32) : List UInt32 :=
  let back := fun place => schedule.getD place 0
  let recent := back 1
  let distant := back 14
  let small := rotate distant 7 ^^^ rotate distant 18 ^^^ (distant >>> 3)
  let large := rotate recent 17 ^^^ rotate recent 19 ^^^ (recent >>> 10)
  (large + back 6 + small + back 15) :: schedule

/-- The schedule of a block of sixteen words. -/
def scheduleOf (block : List UInt32) : List UInt32 :=
  ((List.range 48).foldl (fun schedule _ => extendSchedule schedule) block.reverse).reverse

/-- One round: a round constant and a word of the schedule are mixed into the state. -/
def round (state : State) (input : UInt32 × UInt32) : State :=
  let large := rotate state.e 6 ^^^ rotate state.e 11 ^^^ rotate state.e 25
  let choice := (state.e &&& state.f) ^^^ ((~~~ state.e) &&& state.g)
  let first := state.h + large + choice + input.1 + input.2
  let small := rotate state.a 2 ^^^ rotate state.a 13 ^^^ rotate state.a 22
  let majority := (state.a &&& state.b) ^^^ (state.a &&& state.c) ^^^ (state.b &&& state.c)
  ⟨first + (small + majority), state.a, state.b, state.c, state.d + first,
    state.e, state.f, state.g⟩

/-- Mixes one block into the state. -/
def mixBlock (state : State) (block : List UInt32) : State :=
  let mixed := (roundConstants.zip (scheduleOf block)).foldl round state
  ⟨state.a + mixed.a, state.b + mixed.b, state.c + mixed.c, state.d + mixed.d,
    state.e + mixed.e, state.f + mixed.f, state.g + mixed.g, state.h + mixed.h⟩

/-- Mixes as many blocks of sixteen words into the state as are counted. -/
def mixBlocks : Nat → List UInt32 → State → State
  | 0, _, state => state
  | count + 1, words, state => mixBlocks count (words.drop 16) (mixBlock state (words.take 16))

/-! ### Digests -/

/-- The digest of a message in hexadecimal digits of lower case. -/
def hexadecimal (message : List UInt8) : String :=
  let words := wordsOf (padded message)
  let state := mixBlocks (words.length / 16) words initial
  let digits := [state.a, state.b, state.c, state.d, state.e, state.f, state.g, state.h].flatMap
    fun word => (bytesOf 4 word.toNat).flatMap fun byte =>
      [Nat.digitChar (byte.toNat / 16), Nat.digitChar (byte.toNat % 16)]
  String.ofList digits

end StagedBuilder.Digest256
