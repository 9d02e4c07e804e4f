import VaultWire.Bytes.Basic

/-!
# Hexadecimal text

Two lower-case digits for each byte, and the reading of such text; reading takes upper-case digits
as well.
-/

namespace VaultWire.Hex

/-- The lower-case digit for a number below sixteen. -/
def digit (n : Nat) : Char :=
  if n < 10 then Char.ofNat ('0'.toNat + n) else Char.ofNat ('a'.toNat + (n - 10))

def ofByte (b : UInt8) : String := String.ofList [digit (b.toNat / 16), digit (b.toNat % 16)]

def encode (bytes : Bytes) : String := String.join (bytes.map ofByte)

def digit? (c : Char) : Option Nat :=
  if '0' ≤ c ∧ c ≤ '9' then some (c.toNat - '0'.toNat)
  else if 'a' ≤ c ∧ c ≤ 'f' then some (c.toNat - 'a'.toNat + 10)
  else if 'A' ≤ c ∧ c ≤ 'F' then some (c.toNat - 'A'.toNat + 10)
  else none

/-- The bytes written by the digits; `none` for an odd count or a character that is no digit. -/
def decode? : List Char → Option Bytes
  | [] => some []
  | high :: low :: rest => do
    let h ← digit? high
    let l ← digit? low
    return UInt8.ofNat (16 * h + l) :: (← decode? rest)
  | [_] => none

end VaultWire.Hex
