import VaultWire.Error

/-!
# Closed sets of byte values

A table pairs bytes with symbols; every other byte and every other symbol is refused. Flags are the
closed set of zero and one. Where a table names a byte or a symbol twice, the first entry counts.
-/

namespace VaultWire

structure EnumTable where
  name : String
  entries : List (UInt8 × String)
  deriving DecidableEq, Repr

namespace EnumTable

def encode (table : EnumTable) (symbol : String) : Except CodecError UInt8 :=
  match table.entries.find? (·.2 == symbol) with
  | some (byte, _) => .ok byte
  | none => .error (.unknownSymbol table.name symbol)

def decode (table : EnumTable) (byte : UInt8) : Except CodecError String :=
  match table.entries.find? (·.1 == byte) with
  | some (_, symbol) => .ok symbol
  | none => .error (.invalidEnum table.name byte)

/-- The symbol that reading gives back after writing `symbol`. -/
def symbol (table : EnumTable) (symbol : String) : Except CodecError String := do
  table.decode (← table.encode symbol)

end EnumTable

namespace Flag

/-- One for true and zero for false. -/
def encode (flag : Bool) : UInt8 := if flag then 1 else 0

/-- No byte but zero and one is a flag. -/
def decode (byte : UInt8) : Except CodecError Bool :=
  if byte = 0 then .ok false
  else if byte = 1 then .ok true
  else .error (.invalidEnum "bool" byte)

end Flag

end VaultWire
