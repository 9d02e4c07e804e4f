import VaultWire.Proofs.Accepts

/-!
# What is written

The bytes of a value in a field depend on the type and the value alone, so a buffer that is written
is these bytes one after the other. They are given here by what stands in each place of a field:
numbers by their digits, text by the cut to the width, and closed sets by their table.
-/

namespace VaultWire

namespace Wire

/-- The number in `width` bytes, in place `i` the digit of weight `256 ^ i`. -/
def number (width value : Nat) : Bytes :=
  (List.range width).map fun i => UInt8.ofNat (value / 256 ^ i % 256)

/-- The UTF-8 bytes of the text and zeros after them, cut at the width. -/
def text (width : Nat) (content : String) : Bytes :=
  (Text.utf8 content ++ List.replicate width 0).take width

theorem encode_eq_text (content : String) (width : Nat) :
    Text.encode content width = text width content := by
  rw [Text.encode, Bytes.fit, text, List.take_append, List.take_replicate,
    Nat.min_eq_left (Nat.sub_le _ _)]
  rfl

end Wire

/-- The bytes of a value in a field of this type, none for a value that the type does not take. -/
def FieldType.written : FieldType → FieldValue → Bytes
  | uint width, .uint n => Wire.number width n
  | bool, .bool flag => [flag.toUInt8]
  | enum table, .enum symbol => (table.encode symbol).toOption.toList
  | address, .address value => value.bytes
  | text width, .text content => Wire.text width content
  | padding width, .padding => List.replicate width 0
  | _, _ => []

namespace FieldType

@[simp] theorem written_byte (w : UInt8) : (uint 1).written (.word w) = [w] := by
  change [UInt8.ofNat (w.toNat / 256 ^ 0 % 256)] = [w]
  rw [pow_zero, Nat.div_one, Nat.mod_eq_of_lt w.toNat_lt, UInt8.ofNat_toNat]

@[simp] theorem written_word32 (w : UInt32) :
    (uint 4).written (.word w) = Wire.number 4 w.toNat := rfl

@[simp] theorem written_word64 (w : UInt64) :
    (uint 8).written (.word w) = Wire.number 8 w.toNat := rfl

@[simp] theorem written_bool (flag : Bool) : bool.written (.bool flag) = [flag.toUInt8] := rfl

@[simp] theorem written_address (value : Address) :
    address.written (.address value) = value.bytes := rfl

@[simp] theorem written_text (width : Nat) (content : String) :
    (text width).written (.text content) = Wire.text width content := rfl

@[simp] theorem written_padding (width : Nat) :
    (padding width).written .padding = List.replicate width 0 := rfl

@[simp] theorem written_status (status : Status) :
    (enum Status.table).written (.enum status.symbol) = [status.byte] := by
  cases status <;> rfl

@[simp] theorem written_selector (selector : Selector) :
    (enum Selector.table).written (.enum selector.symbol) = [selector.byte] := by
  cases selector <;> rfl

end FieldType

namespace Field

variable {field : Field} {fields : List Field} {value : FieldValue} {values : List FieldValue}
  {bytes : Bytes} {offset : Nat}

theorem encode_eq_ok_iff :
    field.encode value = .ok bytes ↔
      field.type.Accepts value ∧ bytes = field.type.written value := by
  have hplain (written : Bytes) :
      (Except.ok written : Except CodecError Bytes) = .ok bytes ↔ True ∧ bytes = written := by
    rw [Except.ok.injEq, true_and]
    exact eq_comm
  obtain ⟨name, type⟩ := field
  cases type <;> cases value <;> try exact iff_of_false nofun (fun h => h.1)
  case uint.uint width n =>
    change Integer.encode n width = .ok bytes ↔ n < 256 ^ width ∧ bytes = Wire.number width n
    rw [Integer.encode_natCast, LittleEndian.encode_eq_map, Wire.number]
    by_cases h : n < 256 ^ width
    · rw [if_pos h, and_iff_right h, Except.ok.injEq]
      exact eq_comm
    · rw [if_neg h]
      exact iff_of_false nofun fun hbytes => h hbytes.1
  case bool.bool flag => exact hplain [flag.toUInt8]
  case enum.enum table symbol =>
    change (table.encode symbol).map ([·]) = .ok bytes ↔
      symbol ∈ table.entries.map (·.2) ∧ bytes = (table.encode symbol).toOption.toList
    rw [map_eq_ok_iff]
    constructor
    · rintro ⟨byte, hbyte, rfl⟩
      exact ⟨List.mem_map_of_mem (EnumTable.mem_of_encode hbyte), by rw [hbyte]; rfl⟩
    · rintro ⟨hmem, rfl⟩
      obtain ⟨byte, hbyte⟩ := EnumTable.exists_encode_of_mem hmem
      exact ⟨byte, hbyte, by rw [hbyte]; rfl⟩
  case address.address address => exact hplain address.bytes
  case text.text width content =>
    change _ ↔ True ∧ bytes = Wire.text width content
    rw [← Wire.encode_eq_text]
    exact hplain (Text.encode content width)
  case padding.padding width => exact hplain (List.replicate width 0)

theorem length_written (h : field.type.Accepts value) :
    (field.type.written value).length = field.type.width :=
  length_of_encode (encode_eq_ok_iff.mpr ⟨h, rfl⟩)

/-- The bytes of the values in their fields, one after the other. -/
def writtenAll (fields : List Field) (values : List FieldValue) : Bytes :=
  (List.zipWith (fun field value => field.type.written value) fields values).flatten

@[simp] theorem writtenAll_nil : writtenAll [] values = [] := rfl

@[simp] theorem writtenAll_cons :
    writtenAll (field :: fields) (value :: values) =
      field.type.written value ++ writtenAll fields values := rfl

theorem encodeAll_eq_ok_iff (hcount : values.length = fields.length) :
    encodeAll fields values offset = .ok bytes ↔
      AcceptAll fields values ∧ bytes = writtenAll fields values := by
  induction fields generalizing values offset bytes with
  | nil =>
      obtain rfl := List.length_eq_zero_iff.mp hcount
      change Except.ok [] = Except.ok bytes ↔ _
      rw [acceptAll_nil_iff, Except.ok.injEq, writtenAll_nil, and_iff_right rfl]
      exact eq_comm
  | cons field fields ih =>
      cases values with
      | nil => cases hcount
      | cons value values =>
          rw [encodeAll_cons_eq_ok_iff, AcceptAll, List.forall₂_cons]
          constructor
          · rintro ⟨first, rest, hfirst, hrest, rfl⟩
            obtain ⟨hvalue, rfl⟩ := encode_eq_ok_iff.mp hfirst
            obtain ⟨hvalues, rfl⟩ := (ih (Nat.succ.inj hcount)).mp hrest
            exact ⟨⟨hvalue, hvalues⟩, rfl⟩
          · rintro ⟨⟨hvalue, hvalues⟩, rfl⟩
            exact ⟨_, _, encode_eq_ok_iff.mpr ⟨hvalue, rfl⟩,
              (ih (Nat.succ.inj hcount)).mpr ⟨hvalues, rfl⟩, rfl⟩

theorem length_writtenAll (h : AcceptAll fields values) :
    (writtenAll fields values).length = totalWidth fields := by
  have hcount := h.length_eq.symm
  have hencode : encodeAll fields values 0 = .ok (writtenAll fields values) :=
    (encodeAll_eq_ok_iff hcount).mpr ⟨h, rfl⟩
  exact length_of_encodeAll hcount hencode

/-- Whether the bytes of the values stand in the buffer one after the other, the first of them at
`offset`. -/
def WrittenAt (raw : Bytes) : Nat → List Field → List FieldValue → Prop
  | _, [], values => values = []
  | _, _ :: _, [] => False
  | offset, field :: fields, value :: values =>
    (raw.drop offset).take field.type.width = field.type.written value ∧
      WrittenAt raw (offset + field.type.width) fields values

theorem drop_eq_writtenAll_iff {raw : Bytes} (h : AcceptAll fields values)
    (hlength : raw.length = offset + totalWidth fields) :
    raw.drop offset = writtenAll fields values ↔ WrittenAt raw offset fields values := by
  induction h generalizing offset with
  | nil => exact iff_of_true (List.drop_of_length_le hlength.le) rfl
  | @cons field value fields values hvalue _ ih =>
      rw [totalWidth_cons, ← Nat.add_assoc] at hlength
      rw [writtenAll_cons, WrittenAt, ← ih hlength, ← List.drop_drop]
      constructor
      · intro hdrop
        rw [hdrop]
        exact ⟨List.take_left' (length_written hvalue), List.drop_left' (length_written hvalue)⟩
      · rintro ⟨hfirst, hrest⟩
        rw [← hfirst, ← hrest, List.take_append_drop]

end Field

namespace Schema

variable {schema : Schema} {values : List FieldValue} {raw bytes : Bytes}

theorem encode_eq_ok_iff_written :
    schema.encode values = .ok bytes ↔
      Field.AcceptAll schema.fields values ∧ bytes = Field.writtenAll schema.fields values := by
  rw [encode_eq_ok_iff]
  constructor
  · rintro ⟨hcount, hbytes⟩
    exact (Field.encodeAll_eq_ok_iff hcount).mp hbytes
  · intro h
    have hcount := h.1.length_eq.symm
    exact ⟨hcount, (Field.encodeAll_eq_ok_iff hcount).mpr h⟩

theorem encode_eq_ok_iff_writtenAt (h : Field.AcceptAll schema.fields values) :
    schema.encode values = .ok raw ↔
      raw.length = schema.width ∧ Field.WrittenAt raw 0 schema.fields values := by
  constructor
  · intro hencode
    have hlength := length_of_encode hencode
    have hwritten := (encode_eq_ok_iff_written.mp hencode).2
    exact ⟨hlength, (Field.drop_eq_writtenAll_iff h (by rwa [Nat.zero_add])).mp hwritten⟩
  · rintro ⟨hlength, hwritten⟩
    have hdrop := (Field.drop_eq_writtenAll_iff h (by rwa [Nat.zero_add])).mpr hwritten
    exact encode_eq_ok_iff_written.mpr ⟨h, hdrop⟩

end Schema

end VaultWire
