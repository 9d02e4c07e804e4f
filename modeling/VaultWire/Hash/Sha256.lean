import VaultWire.Bytes.Basic

/-!
# SHA-256

The message is padded to blocks of 64 bytes, each block is expanded to a schedule of 64 words, and
64 rounds mix the schedule into a state of eight words. The state after the last block is the hash.
-/

namespace VaultWire.Sha256

structure State where
  (a b c d e f g h : UInt32)
  deriving DecidableEq

/-- The chaining value before the first block. -/
def State.initial : State :=
  ⟨0x6a09e667, 0xbb67ae85, 0x3c6ef372, 0xa54ff53a, 0x510e527f, 0x9b05688c, 0x1f83d9ab, 0x5be0cd19⟩

def roundConstants : List UInt32 := [
  0x428a2f98, 0x71374491, 0xb5c0fbcf, 0xe9b5dba5, 0x3956c25b, 0x59f111f1, 0x923f82a4, 0xab1c5ed5,
  0xd807aa98, 0x12835b01, 0x243185be, 0x550c7dc3, 0x72be5d74, 0x80deb1fe, 0x9bdc06a7, 0xc19bf174,
  0xe49b69c1, 0xefbe4786, 0x0fc19dc6, 0x240ca1cc, 0x2de92c6f, 0x4a7484aa, 0x5cb0a9dc, 0x76f988da,
  0x983e5152, 0xa831c66d, 0xb00327c8, 0xbf597fc7, 0xc6e00bf3, 0xd5a79147, 0x06ca6351, 0x14292967,
  0x27b70a85, 0x2e1b2138, 0x4d2c6dfc, 0x53380d13, 0x650a7354, 0x766a0abb, 0x81c2c92e, 0x92722c85,
  0xa2bfe8a1, 0xa81a664b, 0xc24b8b70, 0xc76c51a3, 0xd192e819, 0xd6990624, 0xf40e3585, 0x106aa070,
  0x19a4c116, 0x1e376c08, 0x2748774c, 0x34b0bcb5, 0x391c0cb3, 0x4ed8aa4a, 0x5b9cca4f, 0x682e6ff3,
  0x748f82ee, 0x78a5636f, 0x84c87814, 0x8cc70208, 0x90befffa, 0xa4506ceb, 0xbef9a3f7, 0xc67178f2]

/-- The word turned to the right by `n` bits, for `n` between 1 and 31. -/
def rotr (w n : UInt32) : UInt32 := (w >>> n) ||| (w <<< (32 - n))

def round (s : State) (constant word : UInt32) : State :=
  let choice := (s.e &&& s.f) ^^^ (~~~s.e &&& s.g)
  let majority := (s.a &&& s.b) ^^^ (s.a &&& s.c) ^^^ (s.b &&& s.c)
  let sumE := rotr s.e 6 ^^^ rotr s.e 11 ^^^ rotr s.e 25
  let sumA := rotr s.a 2 ^^^ rotr s.a 13 ^^^ rotr s.a 22
  let t := s.h + sumE + choice + constant + word
  ⟨t + sumA + majority, s.a, s.b, s.c, s.d + t, s.e, s.f, s.g⟩

/-- The next word of the schedule, out of the words before it, latest first. -/
def nextWord (before : List UInt32) : UInt32 :=
  let near := before.getD 1 0
  let far := before.getD 14 0
  let mixNear := rotr near 17 ^^^ rotr near 19 ^^^ (near >>> 10)
  let mixFar := rotr far 7 ^^^ rotr far 18 ^^^ (far >>> 3)
  mixNear + before.getD 6 0 + mixFar + before.getD 15 0

/-- The words `before`, latest first, with `n` further words of the schedule in front. -/
def extend : Nat → List UInt32 → List UInt32
  | 0, before => before
  | n + 1, before => extend n (nextWord before :: before)

/-- The words of a byte string, each with its highest byte first; a rest of less than four bytes is
dropped. -/
def words : Bytes → List UInt32
  | b₀ :: b₁ :: b₂ :: b₃ :: rest =>
    ((b₀.toUInt32 <<< 24) ||| (b₁.toUInt32 <<< 16) ||| (b₂.toUInt32 <<< 8) ||| b₃.toUInt32) ::
      words rest
  | _ => []

def compress (s : State) (block : Bytes) : State :=
  let schedule := (extend 48 (words block).reverse).reverse
  let mixed := (roundConstants.zip schedule).foldl (fun t p => round t p.1 p.2) s
  ⟨s.a + mixed.a, s.b + mixed.b, s.c + mixed.c, s.d + mixed.d,
    s.e + mixed.e, s.f + mixed.f, s.g + mixed.g, s.h + mixed.h⟩

/-- The chaining value after `n` blocks taken from the front of the bytes. -/
def compressBlocks : Nat → State → Bytes → State
  | 0, s, _ => s
  | n + 1, s, bytes => compressBlocks n (compress s (bytes.take 64)) (bytes.drop 64)

def bigEndian (w : UInt32) : Bytes :=
  [(w >>> 24).toUInt8, (w >>> 16).toUInt8, (w >>> 8).toUInt8, w.toUInt8]

-- Powers are those of the core library, whatever other instances are in scope.
attribute [local instance(2000)] instPowNat

/-- The message with a single one bit, the fewest zeros that complete a block, and the number of its
bits in the last eight bytes. -/
def pad (message : Bytes) : Bytes :=
  let bits := 8 * message.length
  let length := bigEndian (UInt32.ofNat (bits / 2 ^ (32 : Nat))) ++ bigEndian (UInt32.ofNat bits)
  message ++ 0x80 :: Bytes.zeros ((119 - message.length % 64) % 64) ++ length

def State.bytes (s : State) : Bytes :=
  [s.a, s.b, s.c, s.d, s.e, s.f, s.g, s.h].flatMap bigEndian

theorem State.length_bytes (s : State) : s.bytes.length = 32 := by
  simp [State.bytes, bigEndian]

def finalState (message : Bytes) : State :=
  let padded := pad message
  compressBlocks (padded.length / 64) State.initial padded

def hash (message : Bytes) : Bytes := (finalState message).bytes

theorem length_hash (message : Bytes) : (hash message).length = 32 :=
  (finalState message).length_bytes

example : hash [0x61, 0x62, 0x63] =
    [0xba, 0x78, 0x16, 0xbf, 0x8f, 0x01, 0xcf, 0xea, 0x41, 0x41, 0x40, 0xde, 0x5d, 0xae, 0x22, 0x23,
      0xb0, 0x03, 0x61, 0xa3, 0x96, 0x17, 0x7a, 0x9c, 0xb4, 0x10, 0xff, 0x61, 0xf2, 0x00, 0x15, 0xad] := by
  decide +kernel

end VaultWire.Sha256
