import VaultWire.EnumTable

/-!
# Layouts

A buffer carries no tags and no lengths: its schema alone says where a field ends and the next one
begins. A schema is a named list of fields, each with a name and a type, and the type fixes the
width.
-/

namespace VaultWire

/-- What a field holds, and in how many bytes. -/
inductive FieldType where
  /-- An unsigned integer, least significant byte first. -/
  | uint (width : Nat)
  | bool
  | enum (table : EnumTable)
  | address
  /-- UTF-8 text, filled up with zeros. -/
  | text (width : Nat)
  /-- Zeros that have to be zeros when read. -/
  | padding (width : Nat)
  deriving DecidableEq, Repr

namespace FieldType

def width : FieldType → Nat
  | uint width => width
  | bool => 1
  | enum _ => 1
  | address => 32
  | text width => width
  | padding width => width

/-- The word for the field's kind in messages. -/
def kind : FieldType → String
  | uint _ => "unsigned integer"
  | bool => "bool"
  | enum _ => "enum"
  | address => "address"
  | text _ => "text"
  | padding _ => "padding"

end FieldType

structure Field where
  name : String
  type : FieldType
  deriving DecidableEq, Repr

/-- A named sequence of fields. Names of fields may repeat. -/
structure Schema where
  name : String
  fields : List Field
  deriving DecidableEq, Repr

-- The empty sum is the zero of the core library, whatever other instances are in scope.
attribute [local instance(2000)] Zero.ofOfNat0

def Field.totalWidth (fields : List Field) : Nat := (fields.map (·.type.width)).sum

/-- The offset of the first field of this name, counted from `start`. -/
def Field.offsetFrom? (name : String) (start : Nat) : List Field → Option Nat
  | [] => none
  | field :: rest =>
    if field.name = name then some start
    else offsetFrom? name (start + field.type.width) rest

namespace Schema

def width (schema : Schema) : Nat := Field.totalWidth schema.fields

/-- Whether buffers with this layout have no bytes, which a schema with fields may also have. -/
def isEmpty (schema : Schema) : Bool := schema.width == 0

def offsetOf? (schema : Schema) (name : String) : Option Nat :=
  Field.offsetFrom? name 0 schema.fields

end Schema

end VaultWire
