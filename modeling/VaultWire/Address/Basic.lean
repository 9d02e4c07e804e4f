import VaultWire.Bytes.LittleEndian

/-!
# Addresses

An address is 32 bytes: a public key, a program or an account derived from one.
-/

namespace VaultWire

structure Address where
  bytes : Bytes
  length_bytes : bytes.length = 32
  deriving DecidableEq

namespace Address

def width : Nat := 32

/-- The address with these bytes, if they are as many as it takes. -/
def ofBytes? (bytes : Bytes) : Option Address :=
  if h : bytes.length = 32 then some ⟨bytes, h⟩ else none

/-- The address that reads as the number `n` from its first byte to its last. -/
def ofNat (n : Nat) : Address := ⟨(LittleEndian.encode 32 n).reverse, by simp⟩

def zero : Address := ⟨Bytes.zeros 32, by simp⟩

instance : Inhabited Address := ⟨zero⟩

end Address

end VaultWire
