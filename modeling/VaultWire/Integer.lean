import VaultWire.Bytes.LittleEndian
import VaultWire.Error

/-!
# Integers of any size

The integers that cross the wire are not negative and fill a fixed number of bytes. Encoding refuses
the others; decoding reads a whole byte string and cannot fail.
-/

namespace VaultWire.Integer

/-- The integer in exactly `width` little-endian bytes. -/
def encode (value : Int) (width : Nat) : Except CodecError Bytes :=
  match value with
  | .ofNat n =>
    match LittleEndian.encode? width n with
    | some bytes => .ok bytes
    | none => .error (.overflow (toString n) width)
  | .negSucc _ => .error (.range (toString value))

/-- The number that all the bytes together stand for. -/
def decode (bytes : Bytes) : Nat := LittleEndian.decode bytes

end VaultWire.Integer
