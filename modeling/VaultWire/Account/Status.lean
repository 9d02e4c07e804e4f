import VaultWire.EnumTable

/-!
# The status of a config

Each status has a byte on the wire and a symbol in records; the table lists both.
-/

namespace VaultWire

/-- How far a config is in use. -/
inductive Status where
  | waiting
  | active
  | expired
  | paused
  | canceled
  deriving DecidableEq, Repr, Inhabited

namespace Status

def table : EnumTable :=
  ⟨"status", [(0, "Waiting"), (1, "Active"), (2, "Expired"), (3, "Paused"), (4, "Canceled")]⟩

def byte : Status → UInt8
  | waiting => 0
  | active => 1
  | expired => 2
  | paused => 3
  | canceled => 4

def symbol : Status → String
  | waiting => "Waiting"
  | active => "Active"
  | expired => "Expired"
  | paused => "Paused"
  | canceled => "Canceled"

def ofByte (byte : UInt8) : Except CodecError Status :=
  if byte = 0 then .ok waiting
  else if byte = 1 then .ok active
  else if byte = 2 then .ok expired
  else if byte = 3 then .ok paused
  else if byte = 4 then .ok canceled
  else .error (.invalidEnum table.name byte)

def ofSymbol (symbol : String) : Except CodecError Status := do
  ofByte (← table.encode symbol)

@[simp] theorem ofSymbol_symbol (status : Status) : ofSymbol status.symbol = .ok status := by
  cases status <;> rfl

end Status

end VaultWire
