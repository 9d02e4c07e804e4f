import VaultWire.Schema.Record
import VaultWire.Text.Fixed

/-!
# Writing a buffer

One value for each field, in order. The first value that cannot be written decides the error. A value
of the wrong kind is reported as it is; any other cause is annotated with the field and the offset.
-/

namespace VaultWire

def Field.encode (field : Field) (value : FieldValue) : Except CodecError Bytes :=
  match field.type, value with
  | .uint width, .uint n => Integer.encode n width
  | .bool, .bool flag => .ok [Flag.encode flag]
  | .enum table, .enum symbol => (table.encode symbol).map ([·])
  | .address, .address address => .ok address.bytes
  | .text width, .text text => .ok (Text.encode text width)
  | .padding width, .padding => .ok (Bytes.zeros width)
  | type, _ => .error (.typeMismatch field.name type.kind)

/-- The cause as reported for a field that starts at `offset`. -/
def Field.annotate (field : Field) (offset : Nat) : CodecError → CodecError
  | .typeMismatch name expected => .typeMismatch name expected
  | cause => .field field.name offset cause

/-- The bytes of the values in their fields, the first of which starts at `offset`. -/
def Field.encodeAll : List Field → List FieldValue → Nat → Except CodecError Bytes
  | field :: fields, value :: values, offset => do
    let bytes ← (field.encode value).mapError (field.annotate offset)
    let rest ← encodeAll fields values (offset + bytes.length)
    return bytes ++ rest
  | _, _, _ => .ok []

/-- The buffer that holds the values, one for each field. -/
def Schema.encode (schema : Schema) (values : List FieldValue) : Except CodecError Bytes :=
  if values.length = schema.fields.length then Field.encodeAll schema.fields values 0
  else .error (.fieldCount schema.name schema.fields.length values.length)

end VaultWire
