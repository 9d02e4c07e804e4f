import VaultWire.Address.Basic

/-!
# Base-58 text

A byte string is read as a number, first byte highest, and written with 58 digits that leave out the
look-alikes `0`, `O`, `I` and `l`. Each zero byte at the front is written as the digit for zero.
-/

namespace VaultWire.Base58

/-- The digits in order of their value. -/
def alphabet : List Char := "123456789ABCDEFGHJKLMNPQRSTUVWXYZabcdefghijkmnopqrstuvwxyz".toList

def digit (value : Nat) : Char := alphabet.getD value '1'

/-- The digits of a number, lowest first; zero has none. -/
def digits (n : Nat) : List Char :=
  if n = 0 then [] else digit (n % 58) :: digits (n / 58)
termination_by n
decreasing_by omega

def encode (bytes : Bytes) : String :=
  let leading := (bytes.takeWhile (· == 0)).map fun _ => digit 0
  String.ofList (leading ++ (digits (LittleEndian.decode bytes.reverse)).reverse)

end VaultWire.Base58

namespace VaultWire.Address

def base58 (address : Address) : String := Base58.encode address.bytes

end VaultWire.Address
