import VaultWire.Bytes.Basic

/-!
# Little-endian integers

A natural number written in base 256, least significant byte first, in a given number of bytes.
`encode` keeps the low bytes of any number; `encode?` refuses a number that needs more bytes.
-/

namespace VaultWire.LittleEndian

/-- The `width` low bytes of `n`. -/
def encode : Nat → Nat → Bytes
  | 0, _ => []
  | width + 1, n => UInt8.ofNat (n % 256) :: encode width (n / 256)

@[simp] theorem length_encode (width n : Nat) : (encode width n).length = width := by
  induction width generalizing n with
  | zero => rfl
  | succ width ih => simp [encode, ih]

/-- All bytes of `n` in `width` places, or `none` if a part of `n` is left over. -/
def encode? : Nat → Nat → Option Bytes
  | 0, n => if n = 0 then some [] else none
  | width + 1, n => (encode? width (n / 256)).map (UInt8.ofNat (n % 256) :: ·)

/-- The number that the bytes stand for; no bytes stand for zero. -/
def decode : Bytes → Nat
  | [] => 0
  | b :: rest => b.toNat + 256 * decode rest

end VaultWire.LittleEndian
