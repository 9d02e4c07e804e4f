import VaultWire.Schema.Encode
import VaultWire.Schema.Decode

/-!
# Accounts in buffers

A type of accounts says how its buffers are laid out and how an account is told from a record and
turned into values; reading and writing buffers is then the same for all of them.
-/

namespace VaultWire

class Packed (α : Type) where
  schema : Schema
  ofRecord : Record → Except CodecError α
  values : α → List FieldValue

namespace Packed

variable {α : Type} [Packed α]

def unpack (raw : Bytes) : Except CodecError α := do
  ofRecord (← (schema α).decode raw)

def pack (account : α) : Except CodecError Bytes := (schema α).encode (values account)

/-- The outcome of writing an account over a buffer, and the buffer afterwards. A buffer of another
length than the layout's is refused before anything is written. -/
def packInto (account : α) (dst : Bytes) : Except CodecError Unit × Bytes :=
  if dst.length = (schema α).width then
    match pack account with
    | .ok bytes => (.ok (), Bytes.overwrite dst bytes)
    | .error e => (.error e, dst)
  else (.error (.schemaLength (schema α).width dst.length), dst)

end Packed

end VaultWire
