import VaultWire.Bytes.Hex

/-!
# What can go wrong in coding and derivation

One type of causes for encoding, decoding, payloads and address derivation. A cause that arises
inside a field is annotated with the field's name and byte offset; the annotation is looked through
when a cause is reported by its number alone.
-/

namespace VaultWire

/-- The causes of failure. Numbers that did not fit are kept as decimal text of any length. -/
inductive CodecError where
  /-- The number needs more than `width` bytes. -/
  | overflow (value : String) (width : Nat)
  | range (value : String)
  /-- The byte is not in the closed set of values named `table`. -/
  | invalidEnum (table : String) (value : UInt8)
  /-- The symbol is not in the closed set of values named `table`. -/
  | unknownSymbol (table symbol : String)
  /-- The text, `length` bytes after trimming, is not valid UTF-8. -/
  | invalidText (length : Nat)
  | schemaLength (expected actual : Nat)
  /-- The cause `source` arose in the field `name` at byte `offset`. -/
  | field (name : String) (offset : Nat) (source : CodecError)
  /-- The value for `field` is of another kind than the field. -/
  | typeMismatch (field expected : String)
  | fieldCount (schema : String) (expected actual : Nat)
  | missingField (name : String)
  /-- The padding byte at `index` is not zero. -/
  | nonZeroPadding (index : Nat) (value : UInt8)
  | emptyPayload
  | unknownDiscriminator (value : UInt8)
  | noValidAddress
  | tooManySeeds (count max : Nat)
  /-- The seed at `index` is longer than a derivation takes. -/
  | seedTooLong (index length max : Nat)
  | addressOnCurve (bump : UInt8)
  | decimalsOutOfRange (decimals max : UInt8)
  deriving DecidableEq, Repr

namespace CodecError

/-- The number of the cause; an annotation has a number of its own. -/
def code : CodecError → UInt32
  | overflow .. => 0
  | range .. => 1
  | invalidEnum .. => 2
  | unknownSymbol .. => 3
  | invalidText .. => 4
  | schemaLength .. => 5
  | field .. => 6
  | typeMismatch .. => 7
  | fieldCount .. => 8
  | missingField .. => 9
  | nonZeroPadding .. => 10
  | emptyPayload => 11
  | unknownDiscriminator .. => 12
  | noValidAddress => 13
  | tooManySeeds .. => 14
  | seedTooLong .. => 15
  | addressOnCurve .. => 16
  | decimalsOutOfRange .. => 17

/-- The innermost cause, below all annotations. -/
def root : CodecError → CodecError
  | field _ _ source => source.root
  | cause => cause

/-- The cause that an annotation is about; only annotations have one. -/
def source? : CodecError → Option CodecError
  | field _ _ source => some source
  | _ => none

def message : CodecError → String
  | overflow value width => s!"value {value} does not fit in {width} byte(s)"
  | range value => s!"negative value {value} cannot be encoded as unsigned"
  | invalidEnum table value => s!"byte {value} is not a valid `{table}` value"
  | unknownSymbol table symbol => s!"symbol `{symbol}` is not part of `{table}`"
  | invalidText length => s!"fixed string of {length} byte(s) is not valid UTF-8"
  | schemaLength expected actual => s!"schema expects {expected} byte(s), buffer has {actual}"
  | field name offset source => s!"field `{name}` at offset {offset}: {source.message}"
  | typeMismatch name expected => s!"field `{name}` expects a {expected} value"
  | fieldCount schema expected actual =>
    s!"schema `{schema}` has {expected} field(s), got {actual} value(s)"
  | missingField name => s!"record has no field `{name}`"
  | nonZeroPadding index value =>
    s!"padding byte {index} is 0x{Hex.ofByte value}, expected zero"
  | emptyPayload => "instruction payload is empty"
  | unknownDiscriminator value => s!"unknown instruction discriminator {value}"
  | noValidAddress => "no valid program address found for the given seeds"
  | tooManySeeds count max => s!"{count} seed(s) given, at most {max} allowed"
  | seedTooLong index length max =>
    s!"seed {index} is {length} byte(s), at most {max} allowed"
  | addressOnCurve bump => s!"bump {bump} yields an on-curve address"
  | decimalsOutOfRange decimals max => s!"{decimals} decimals exceeds the maximum of {max}"

end CodecError

end VaultWire
