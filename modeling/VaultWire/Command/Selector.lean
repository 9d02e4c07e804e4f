import VaultWire.EnumTable

/-!
# What an update changes

An update of the config names the one setting that it changes.
-/

namespace VaultWire

inductive Selector where
  | status
  | fee
  | admin
  deriving DecidableEq, Repr, Inhabited

namespace Selector

def table : EnumTable := ⟨"selector", [(0, "Status"), (1, "Fee"), (2, "Admin")]⟩

def byte : Selector → UInt8
  | status => 0
  | fee => 1
  | admin => 2

def symbol : Selector → String
  | status => "Status"
  | fee => "Fee"
  | admin => "Admin"

def ofByte (byte : UInt8) : Except CodecError Selector :=
  if byte = 0 then .ok status
  else if byte = 1 then .ok fee
  else if byte = 2 then .ok admin
  else .error (.invalidEnum table.name byte)

def ofSymbol (symbol : String) : Except CodecError Selector := do
  ofByte (← table.encode symbol)

@[simp] theorem ofSymbol_symbol (selector : Selector) :
    ofSymbol selector.symbol = .ok selector := by
  cases selector <;> rfl

end Selector

end VaultWire
