import VaultWire.Schema.Record
import VaultWire.Text.Fixed

/-!
# Reading a buffer

A cursor walks over the buffer field by field. A buffer that is too short is refused before the walk
and a buffer that is too long after it, so a field that cannot be read is reported before bytes that
are left over.
-/

namespace VaultWire

def Bytes.checkPadding (bytes : Bytes) : Except CodecError Unit :=
  match Bytes.firstNonZero 0 bytes with
  | some (index, value) => .error (.nonZeroPadding index value)
  | none => .ok ()

/-- The value in the bytes of one field, which are as many as the field is wide. -/
def FieldType.decode (type : FieldType) (bytes : Bytes) : Except CodecError FieldValue :=
  match type, bytes with
  | .uint _, bytes => .ok (.uint (Integer.decode bytes))
  | .bool, [byte] => (Flag.decode byte).map .bool
  | .enum table, [byte] => (table.decode byte).map .enum
  | .address, bytes =>
    match Address.ofBytes? bytes with
    | some value => .ok (.address value)
    | none => .error (.schemaLength 32 bytes.length)
  | .text _, bytes => (Text.decode bytes).map .text
  | .padding _, bytes => (Bytes.checkPadding bytes).map fun _ => .padding
  | type, bytes => .error (.schemaLength type.width bytes.length)

/-- How far the walk has come: the bytes behind it, and the entries read from them. -/
structure Cursor where
  offset : Nat
  record : Record
  deriving DecidableEq

namespace Cursor

def start : Cursor := ⟨0, Record.empty⟩

/-- The walk over one more field of `raw`. -/
def read (raw : Bytes) (cursor : Cursor) (field : Field) : Except CodecError Cursor := do
  let stop := cursor.offset + field.type.width
  match Bytes.window? raw cursor.offset field.type.width with
  | none => .error (.schemaLength stop raw.length)
  | some window =>
    let value ← (field.type.decode window).mapError (.field field.name cursor.offset)
    return ⟨stop, cursor.record.push field.name value⟩

end Cursor

/-- The record in a buffer that has exactly this layout. -/
def Schema.decode (schema : Schema) (raw : Bytes) : Except CodecError Record := do
  if raw.length < schema.width then
    throw (.schemaLength schema.width raw.length)
  let cursor ← schema.fields.foldlM (Cursor.read raw) Cursor.start
  if cursor.offset ≠ raw.length then
    throw (.schemaLength cursor.offset raw.length)
  return cursor.record

end VaultWire
