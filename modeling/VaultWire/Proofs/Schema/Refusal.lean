import VaultWire.Proofs.Schema

/-!
# Refused buffers

The bytes of a field are refused for a byte outside a closed set, for text that is none, or for
padding that is not zero. A buffer is refused for its length or for the first such field, which is
reported with its name and its place in the layout.
-/

namespace VaultWire

theorem Bytes.firstNonZero_eq_some_iff {bytes : Bytes} {start index : Nat} {value : UInt8} :
    firstNonZero start bytes = some (index, value) ↔
      ∃ count after, bytes = List.replicate count 0 ++ value :: after ∧ value ≠ 0 ∧
        index = start + count := by
  induction bytes generalizing start with
  | nil => simp [firstNonZero]
  | cons byte rest ih =>
      rw [firstNonZero]
      split_ifs with hzero
      · rw [ih]
        constructor
        · rintro ⟨count, after, rfl, hvalue, rfl⟩
          refine ⟨count + 1, after, ?_, hvalue, by omega⟩
          rw [List.replicate_succ, List.cons_append, hzero]
        · rintro ⟨count, after, hbytes, hvalue, rfl⟩
          cases count with
          | zero => exact absurd ((List.cons.inj hbytes).1.symm.trans hzero) hvalue
          | succ count => exact ⟨count, after, (List.cons.inj hbytes).2, hvalue, by omega⟩
      · constructor
        · intro h
          cases h
          exact ⟨0, rest, rfl, hzero, rfl⟩
        · rintro ⟨count, after, hbytes, -, rfl⟩
          cases count with
          | zero => rw [(List.cons.inj hbytes).1, Nat.add_zero]
          | succ count => exact absurd (List.cons.inj hbytes).1 hzero

theorem Bytes.checkPadding_eq_error_iff {bytes : Bytes} {cause : CodecError} :
    checkPadding bytes = .error cause ↔
      ∃ index value after, bytes = List.replicate index 0 ++ value :: after ∧ value ≠ 0 ∧
        cause = .nonZeroPadding index value := by
  unfold checkPadding
  cases hfirst : firstNonZero 0 bytes with
  | none =>
      refine iff_of_false nofun ?_
      rintro ⟨index, value, after, hbytes, hvalue, -⟩
      rw [firstNonZero_eq_some_iff.mpr ⟨index, after, hbytes, hvalue, rfl⟩] at hfirst
      cases hfirst
  | some found =>
      constructor
      · intro h
        cases h
        obtain ⟨count, after, hbytes, hvalue, hindex⟩ := firstNonZero_eq_some_iff.mp hfirst
        rw [hindex, Nat.zero_add]
        exact ⟨count, found.2, after, hbytes, hvalue, rfl⟩
      · rintro ⟨index, value, after, hbytes, hvalue, rfl⟩
        rw [firstNonZero_eq_some_iff.mpr ⟨index, after, hbytes, hvalue, rfl⟩] at hfirst
        cases hfirst
        rw [Nat.zero_add]

namespace FieldType

/-- The causes for which the bytes of a field of this type are refused. -/
inductive Fault : FieldType → CodecError → Prop
  | bool (byte : UInt8) : Fault .bool (.invalidEnum "bool" byte)
  | enum (table : EnumTable) (byte : UInt8) : Fault (.enum table) (.invalidEnum table.name byte)
  | text (width length : Nat) : Fault (.text width) (.invalidText length)
  | padding (width index : Nat) (value : UInt8) :
      Fault (.padding width) (.nonZeroPadding index value)

variable {type : FieldType} {bytes : Bytes} {cause : CodecError}

theorem fault_of_decode (hlength : bytes.length = type.width)
    (h : type.decode bytes = .error cause) : type.Fault cause := by
  cases type with
  | uint width => cases h
  | bool =>
      obtain ⟨byte, rfl⟩ := List.length_eq_one_iff.mp hlength
      obtain ⟨-, -, rfl⟩ := Flag.decode_eq_error_iff.mp (map_eq_error_iff.mp h)
      exact .bool byte
  | enum table =>
      obtain ⟨byte, rfl⟩ := List.length_eq_one_iff.mp hlength
      obtain ⟨-, rfl⟩ := EnumTable.decode_eq_error_iff.mp (map_eq_error_iff.mp h)
      exact .enum table byte
  | address =>
      rw [decode_address_eq_ok_iff.mpr ⟨⟨bytes, hlength⟩, rfl, rfl⟩] at h
      cases h
  | text width =>
      obtain ⟨-, rfl⟩ := Text.decode_eq_error_iff.mp (map_eq_error_iff.mp h)
      exact .text width _
  | padding width =>
      obtain ⟨index, value, -, -, -, rfl⟩ :=
        Bytes.checkPadding_eq_error_iff.mp (map_eq_error_iff.mp h)
      exact .padding width index value

end FieldType

namespace Field

variable {field : Field} {fields : List Field} {bytes : Bytes} {cause : CodecError}

theorem totalWidth_append (before after : List Field) :
    totalWidth (before ++ after) = totalWidth before + totalWidth after := by
  rw [totalWidth, List.map_append, List.sum_append]
  rfl

theorem decodeAll_cons_eq_error_iff {offset : Nat} :
    decodeAll (field :: fields) offset bytes = .error cause ↔
      (∃ source, field.type.decode (bytes.take field.type.width) = .error source ∧
        cause = .field field.name offset source) ∨
      (∃ value, field.type.decode (bytes.take field.type.width) = .ok value) ∧
        decodeAll fields (offset + field.type.width) (bytes.drop field.type.width) =
          .error cause := by
  rw [decodeAll]
  cases field.type.decode (bytes.take field.type.width) with
  | error source =>
      change Except.error (.field field.name offset source) = Except.error cause ↔ _
      simp [eq_comm]
  | ok value =>
      cases decodeAll fields (offset + field.type.width) (bytes.drop field.type.width) with
      | error other =>
          change Except.error other = Except.error cause ↔ _
          simp
      | ok rest =>
          change Except.ok ((field.name, value) :: rest) = Except.error cause ↔ _
          simp

/-- Reading stops at the first field that cannot be read. -/
theorem decodeAll_eq_error_iff {offset : Nat} :
    decodeAll fields offset bytes = .error cause ↔
      ∃ before field after source, fields = before ++ field :: after ∧
        (∃ entries, decodeAll before offset bytes = .ok entries) ∧
        field.type.decode ((bytes.drop (totalWidth before)).take field.type.width) =
          .error source ∧
        cause = .field field.name (offset + totalWidth before) source := by
  induction fields generalizing offset bytes with
  | nil => exact iff_of_false nofun (by simp)
  | cons first fields ih =>
      rw [decodeAll_cons_eq_error_iff, ih]
      constructor
      · rintro (⟨source, hfirst, hcause⟩ |
          ⟨⟨value, hvalue⟩, before, field, after, source, rfl, ⟨entries, hbefore⟩, hfield, rfl⟩)
        · exact ⟨[], first, fields, source, rfl, ⟨[], rfl⟩, hfirst, hcause⟩
        · refine ⟨first :: before, field, after, source, rfl, ?_, ?_, ?_⟩
          · exact ⟨_, decodeAll_cons_eq_ok_iff.mpr ⟨value, entries, hvalue, hbefore, rfl⟩⟩
          · rwa [totalWidth_cons, ← List.drop_drop]
          · rw [totalWidth_cons, Nat.add_assoc]
      · rintro ⟨before, field, after, source, hfields, ⟨entries, hbefore⟩, hfield, rfl⟩
        cases before with
        | nil =>
            obtain ⟨rfl, rfl⟩ := List.cons.inj hfields
            exact .inl ⟨source, hfield, rfl⟩
        | cons other before =>
            -- The first field is one of those that were read, so the fault lies in the rest.
            obtain ⟨rfl, rfl⟩ := List.cons.inj hfields
            obtain ⟨value, rest, hvalue, hrest, -⟩ := decodeAll_cons_eq_ok_iff.mp hbefore
            rw [totalWidth_cons, ← List.drop_drop] at hfield
            refine .inr ⟨⟨value, hvalue⟩, before, field, after, source, rfl, ⟨rest, hrest⟩,
              hfield, ?_⟩
            rw [totalWidth_cons, Nat.add_assoc]

/-- A field is found at its own place if no field before it has its name. -/
theorem offsetFrom?_append {before after : List Field} {start : Nat}
    (h : ∀ other ∈ before, other.name ≠ field.name) :
    offsetFrom? field.name start (before ++ field :: after) =
      some (start + totalWidth before) := by
  induction before generalizing start with
  | nil => exact if_pos rfl
  | cons other before ih =>
      obtain ⟨hother, hbefore⟩ := List.forall_mem_cons.mp h
      rw [List.cons_append, offsetFrom?, if_neg hother, ih hbefore, totalWidth_cons, Nat.add_assoc]

end Field

namespace Schema

variable {schema : Schema} {raw : Bytes} {cause : CodecError}

def NamesDistinct (schema : Schema) : Prop := (schema.fields.map (·.name)).Nodup

theorem offsetOf?_of_append {before after : List Field} {field : Field}
    (hdistinct : schema.NamesDistinct) (h : schema.fields = before ++ field :: after) :
    schema.offsetOf? field.name = some (Field.totalWidth before) := by
  rw [NamesDistinct, h, List.map_append, List.map_cons, List.nodup_append] at hdistinct
  rw [offsetOf?, h, Field.offsetFrom?_append, Nat.zero_add]
  intro other hother
  exact hdistinct.2.2 _ (List.mem_map_of_mem hother) _ List.mem_cons_self

/-- Whether the cause is a fault of a field of the layout, and reported at the field's place. -/
def Reports (schema : Schema) (cause : CodecError) : Prop :=
  ∃ field ∈ schema.fields, ∃ offset source, cause = .field field.name offset source ∧
    schema.offsetOf? field.name = some offset ∧ field.type.Fault source

theorem reports_of_decodeAll (hdistinct : schema.NamesDistinct)
    (hlength : schema.width ≤ raw.length)
    (h : Field.decodeAll schema.fields 0 raw = .error cause) : schema.Reports cause := by
  obtain ⟨before, field, after, source, hfields, -, hfield, rfl⟩ :=
    Field.decodeAll_eq_error_iff.mp h
  have hmem : field ∈ schema.fields := by
    rw [hfields]
    exact List.mem_append_right _ List.mem_cons_self
  have hwindow :
      ((raw.drop (Field.totalWidth before)).take field.type.width).length = field.type.width := by
    rw [width, hfields, Field.totalWidth_append, Field.totalWidth_cons] at hlength
    rw [List.length_take, List.length_drop]
    omega
  rw [Nat.zero_add]
  exact ⟨field, hmem, _, source, rfl, offsetOf?_of_append hdistinct hfields,
    FieldType.fault_of_decode hwindow hfield⟩

/-- A buffer that is refused has the wrong length or a faulty field. -/
theorem refusal_of_decode (hdistinct : schema.NamesDistinct)
    (h : schema.decode raw = .error cause) :
    cause = .schemaLength schema.width raw.length ∨ schema.Reports cause := by
  rcases Nat.lt_or_ge raw.length schema.width with hshort | hlength
  · rw [decode_of_length_lt hshort] at h
    exact .inl (Except.error.inj h).symm
  · rw [decode_of_width_le hlength] at h
    cases hread : Field.decodeAll schema.fields 0 raw with
    | error other =>
        rw [hread] at h
        obtain rfl := Except.error.inj h
        exact .inr (reports_of_decodeAll hdistinct hlength hread)
    | ok entries =>
        rw [hread] at h
        change (if schema.width = raw.length then Except.ok (Record.mk entries)
          else .error (CodecError.schemaLength schema.width raw.length)) = _ at h
        split_ifs at h
        exact .inl (Except.error.inj h).symm

end Schema

end VaultWire
