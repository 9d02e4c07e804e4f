import VaultWire.Word
import VaultWire.Address.Basic
import VaultWire.Schema.Basic

/-!
# Values and records

A record lists named values in the order in which they were read or written. Names may repeat; a
look-up by name sees the first entry of that name, and the typed look-ups refuse an entry of another
kind.
-/

namespace VaultWire

inductive FieldValue where
  /-- A number of any size; the field's type decides the width. -/
  | uint (value : Nat)
  | bool (value : Bool)
  | enum (symbol : String)
  | address (value : Address)
  | text (value : String)
  | padding
  deriving DecidableEq

def FieldValue.word {α : Type} [Word α] (w : α) : FieldValue := .uint (Word.toNat w)

structure Record where
  entries : List (String × FieldValue)
  deriving DecidableEq

namespace Record

def empty : Record := ⟨[]⟩

def push (record : Record) (name : String) (value : FieldValue) : Record :=
  ⟨record.entries ++ [(name, value)]⟩

def size (record : Record) : Nat := record.entries.length

def values (record : Record) : List FieldValue := record.entries.map (·.2)

/-- The value of the first entry of this name. -/
def get? (record : Record) (name : String) : Option FieldValue := record.entries.lookup name

/-- The value of the first entry of this name, which has to be there. -/
def get (record : Record) (name : String) : Except CodecError FieldValue :=
  match record.get? name with
  | some value => .ok value
  | none => .error (.missingField name)

def uint (record : Record) (name : String) : Except CodecError Nat := do
  match ← record.get name with
  | .uint value => .ok value
  | _ => .error (.typeMismatch name "unsigned integer")

/-- The number under this name, narrowed to a word. -/
def word {α : Type} [Word α] (record : Record) (name : String) : Except CodecError α := do
  Word.narrow (← record.uint name)

def bool (record : Record) (name : String) : Except CodecError Bool := do
  match ← record.get name with
  | .bool value => .ok value
  | _ => .error (.typeMismatch name "bool")

def symbol (record : Record) (name : String) : Except CodecError String := do
  match ← record.get name with
  | .enum symbol => .ok symbol
  | _ => .error (.typeMismatch name "enum")

def address (record : Record) (name : String) : Except CodecError Address := do
  match ← record.get name with
  | .address value => .ok value
  | _ => .error (.typeMismatch name "address")

def text (record : Record) (name : String) : Except CodecError String := do
  match ← record.get name with
  | .text value => .ok value
  | _ => .error (.typeMismatch name "text")

end Record

end VaultWire
