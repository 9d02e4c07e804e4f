import VaultWire.Address.Basic
import VaultWire.Command.Payload

/-!
# Instructions

What is submitted to the ledger: a program, the accounts that it may use, each with its rights, and
the payload.
-/

namespace VaultWire

structure AccountRef where
  address : Address
  isSigner : Bool
  isWritable : Bool
  deriving DecidableEq

namespace AccountRef

def signer (address : Address) : AccountRef := ⟨address, true, true⟩

def writable (address : Address) : AccountRef := ⟨address, false, true⟩

def readonly (address : Address) : AccountRef := ⟨address, false, false⟩

end AccountRef

structure Instruction where
  program : Address
  accounts : List AccountRef
  data : Bytes
  deriving DecidableEq

def Instruction.ofCommand (program : Address) (command : Command) (accounts : List AccountRef) :
    Except CodecError Instruction := do
  return { program, accounts, data := ← command.pack }

end VaultWire
