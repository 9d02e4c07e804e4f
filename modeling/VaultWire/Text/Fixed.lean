import VaultWire.Error

/-!
# Text of fixed width

Text is stored as its UTF-8 bytes, cut at the width of the field or filled up with zeros. The cut
counts bytes, so it may split a character; such a field no longer reads as text.
-/

namespace VaultWire.Text

def labelWidth : Nat := 32

def utf8 (text : String) : Bytes := text.toByteArray.data.toList

def ofUtf8? (bytes : Bytes) : Option String := String.fromUTF8? ⟨bytes.toArray⟩

def encode (text : String) (width : Nat) : Bytes := Bytes.fit width (utf8 text)

/-- The text in a vector of a width known beforehand, place by place. -/
def encodeVector (text : String) (width : Nat) : Vector UInt8 width :=
  let source := text.toByteArray
  Vector.ofFn fun place => if inside : place < source.size then source[place] else 0

/-- The text in the bytes before the zeros at the end. -/
def decode (bytes : Bytes) : Except CodecError String :=
  let kept := Bytes.trimZeros bytes
  match ofUtf8? kept with
  | some text => .ok text
  | none => .error (.invalidText kept.length)

end VaultWire.Text
