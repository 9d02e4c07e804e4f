import VaultWire.ProgramFailure
import VaultWire.Instruction.Basic
import VaultWire.Address.Base58

/-!
# What a client needs of a ledger

A ledger is known by four operations on its states: submitting an instruction, fetching the data of
an account, reading the clock, and telling the number that a program has rejected an instruction
with. Its failures are a type of its own. What a client does is told as an outcome: the result, the
ledger's state afterwards and what was logged on the way.
-/

namespace VaultWire

structure Ledger (σ ε : Type) where
  /-- Whether the instruction was accepted, and the state afterwards. -/
  submit : Instruction → σ → Except ε Unit × σ
  fetch : Address → σ → Except ε (Option Bytes)
  /-- The time in seconds since 1970. -/
  clock : σ → Except ε UInt32
  /-- The number that a program has rejected an instruction with, if the failure tells it. -/
  customCode : ε → Option UInt32 := fun _ => none

inductive ClientError (ε : Type) where
  /-- Something could not be encoded, decoded or derived. -/
  | codec (cause : CodecError)
  | ledger (failure : ε)
  | program (failure : ProgramFailure)
  | accountNotFound (address : Address)
  deriving DecidableEq

def ClientError.message {ε : Type} (describe : ε → String) : ClientError ε → String
  | codec cause => cause.message
  | ledger failure => s!"ledger error: {describe failure}"
  | program failure => s!"program failure {failure.name}: {failure.message}"
  | accountNotFound address => s!"account {address.base58} does not exist"

inductive LogEntry where
  /-- A payload with this first byte is about to be submitted to the program. -/
  | submitting (first : UInt8) (program : Address)
  | fetching (address : Address)
  deriving DecidableEq

def LogEntry.text : LogEntry → String
  | submitting first program => s!"Submitting instruction {first} to {program.base58}"
  | fetching address => s!"Fetching account {address.base58}"

structure Outcome (σ ε α : Type) where
  result : Except (ClientError ε) α
  state : σ
  log : List LogEntry

namespace Outcome

variable {σ ε α β : Type}

/-- A result that left the ledger alone and logged nothing. -/
def ofResult (result : Except (ClientError ε) α) (state : σ) : Outcome σ ε α := ⟨result, state, []⟩

def map (f : α → β) (outcome : Outcome σ ε α) : Outcome σ ε β :=
  { outcome with result := outcome.result.map f }

def andThen (outcome : Outcome σ ε α) (f : α → Except CodecError β) : Outcome σ ε β :=
  { outcome with result := outcome.result.bind fun a => (f a).mapError .codec }

end Outcome

end VaultWire
