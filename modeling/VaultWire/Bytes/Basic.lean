/-!
# Byte strings

Byte strings are lists of bytes, first byte first. Besides runs of zeros this module has the four
operations that fixed-width fields need: the cut to a width, the removal of trailing zeros, the
window at an offset, and the overwriting of a buffer from its front.
-/

namespace VaultWire

abbrev Bytes := List UInt8

namespace Bytes

def zeros (n : Nat) : Bytes := List.replicate n 0

@[simp] theorem length_zeros (n : Nat) : (zeros n).length = n := by simp [zeros]

/-- The bytes in exactly `n` places: what is too much is cut off, what is missing is zero. -/
def fit (n : Nat) (bytes : Bytes) : Bytes := bytes.take n ++ zeros (n - bytes.length)

@[simp] theorem length_fit (n : Nat) (bytes : Bytes) : (fit n bytes).length = n := by
  simp [fit]
  omega

/-- The bytes without the run of zeros at their end; a zero before another byte stays. -/
def trimZeros : Bytes → Bytes
  | [] => []
  | b :: rest =>
    match trimZeros rest with
    | [] => if b = 0 then [] else [b]
    | kept => b :: kept

/-- The first byte that is not zero, with its index counted from `index`. -/
def firstNonZero (index : Nat) : Bytes → Option (Nat × UInt8)
  | [] => none
  | b :: rest => if b = 0 then firstNonZero (index + 1) rest else some (index, b)

/-- The `width` bytes from `offset` on, or `none` if the buffer ends before them. -/
def window? (raw : Bytes) (offset width : Nat) : Option Bytes :=
  if offset + width ≤ raw.length then some ((raw.drop offset).take width) else none

/-- The buffer with its front overwritten by `src`, as far as `src` fits. -/
def overwrite (dst src : Bytes) : Bytes := src.take dst.length ++ dst.drop src.length

end Bytes

end VaultWire
