import VaultWire.Command.Basic
import VaultWire.Schema.Encode
import VaultWire.Schema.Decode

/-!
# Payloads

The payload of a command is the byte of its operation followed by its arguments in their layout. One
limit is not in the layouts: a new mint has at most eighteen decimals, in both directions.
-/

namespace VaultWire

/-- The payload that starts with this byte and goes on with the given parts. -/
def payload (first : UInt8) (parts : List Bytes) : Bytes := first :: parts.flatten

namespace Command

/-- The highest number of decimals of a new mint. -/
def maxDecimals : UInt8 := 18

/-- The limits that the layouts do not express. -/
def check : Command → Except CodecError Unit
  | token2022Mint decimals =>
    if maxDecimals < decimals then
      .error (.field "decimals" 0 (.decimalsOutOfRange decimals maxDecimals))
    else .ok ()
  | _ => .ok ()

def pack (command : Command) : Except CodecError Bytes := do
  command.check
  let arguments ← command.opcode.schema.encode command.arguments
  return payload command.opcode.byte [arguments]

def unpack (bytes : Bytes) : Except CodecError Command :=
  match bytes with
  | [] => .error .emptyPayload
  | first :: rest =>
    match Opcode.ofByte? first with
    | none => .error (.unknownDiscriminator first)
    | some opcode => do
      let command ← ofRecord opcode (← opcode.schema.decode rest)
      command.check
      return command

end Command

end VaultWire
