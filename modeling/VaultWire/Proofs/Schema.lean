import Mathlib.Data.List.Forall2
import VaultWire.Proofs.Field

/-!
# Whole buffers

The walk of the cursor over a buffer of the right length is the same as taking the fields off its
front one after the other, and in that form it mirrors the writer. Both round trips are then one
induction over the fields: reading what was written gives each value as its field rereads it, and
writing what was read gives the buffer.
-/

namespace VaultWire

/-- The entries read off the front of a buffer, the first of which starts at `offset`. -/
def Field.decodeAll : List Field → Nat → Bytes → Except CodecError (List (String × FieldValue))
  | [], _, _ => .ok []
  | field :: fields, offset, bytes => do
    let window := bytes.take field.type.width
    let value ← (field.type.decode window).mapError (.field field.name offset)
    let rest ← decodeAll fields (offset + field.type.width) (bytes.drop field.type.width)
    return (field.name, value) :: rest

/-- The entries read back after the values were written. -/
def Field.rereadAll :
    List Field → List FieldValue → Nat → Except CodecError (List (String × FieldValue))
  | field :: fields, value :: values, offset => do
    let reread ← (field.type.reread value).mapError (.field field.name offset)
    let rest ← rereadAll fields values (offset + field.type.width)
    return (field.name, reread) :: rest
  | _, _, _ => .ok []

namespace Field

theorem totalWidth_cons (field : Field) (fields : List Field) :
    totalWidth (field :: fields) = field.type.width + totalWidth fields := List.sum_cons

def AcceptAll (fields : List Field) (values : List FieldValue) : Prop :=
  List.Forall₂ (fun field value => field.type.Accepts value) fields values

theorem exists_encodeAll {fields : List Field} {values : List FieldValue}
    (h : AcceptAll fields values) (offset : Nat) :
    ∃ bytes, encodeAll fields values offset = .ok bytes := by
  induction h generalizing offset with
  | nil => exact ⟨[], rfl⟩
  | cons hvalue _ ih =>
      obtain ⟨bytes, hbytes⟩ := exists_encode_of_accepts hvalue
      obtain ⟨rest, hrest⟩ := ih (offset + bytes.length)
      refine ⟨bytes ++ rest, bind_eq_ok_iff.mpr ⟨bytes, mapError_eq_ok_iff.mpr hbytes, ?_⟩⟩
      exact bind_eq_ok_iff.mpr ⟨rest, hrest, rfl⟩

theorem encodeAll_cons_eq_ok_iff {field : Field} {fields : List Field} {value : FieldValue}
    {values : List FieldValue} {offset : Nat} {bytes : Bytes} :
    encodeAll (field :: fields) (value :: values) offset = .ok bytes ↔
      ∃ first rest, field.encode value = .ok first ∧
        encodeAll fields values (offset + field.type.width) = .ok rest ∧ bytes = first ++ rest := by
  rw [encodeAll, bind_eq_ok_iff]
  constructor
  · rintro ⟨first, hfirst, h⟩
    rw [mapError_eq_ok_iff] at hfirst
    obtain ⟨rest, hrest, hbytes⟩ := bind_eq_ok_iff.mp h
    rw [length_of_encode hfirst] at hrest
    exact ⟨first, rest, hfirst, hrest, (Except.ok.inj hbytes).symm⟩
  · rintro ⟨first, rest, hfirst, hrest, rfl⟩
    refine ⟨first, mapError_eq_ok_iff.mpr hfirst, bind_eq_ok_iff.mpr ⟨rest, ?_, rfl⟩⟩
    rwa [length_of_encode hfirst]

theorem decodeAll_cons_eq_ok_iff {field : Field} {fields : List Field} {offset : Nat}
    {bytes : Bytes} {entries : List (String × FieldValue)} :
    decodeAll (field :: fields) offset bytes = .ok entries ↔
      ∃ value rest, field.type.decode (bytes.take field.type.width) = .ok value ∧
        decodeAll fields (offset + field.type.width) (bytes.drop field.type.width) = .ok rest ∧
        entries = (field.name, value) :: rest := by
  rw [decodeAll]
  exact mapError_bind_bind_eq_ok_iff

/-- Bytes after the last field are not looked at. -/
theorem decodeAll_take (fields : List Field) (offset : Nat) (bytes : Bytes) :
    decodeAll fields offset (bytes.take (totalWidth fields)) = decodeAll fields offset bytes := by
  induction fields generalizing offset bytes with
  | nil => rfl
  | cons field fields ih =>
      rw [decodeAll, decodeAll, totalWidth_cons, List.take_take,
        Nat.min_eq_left (Nat.le_add_right _ _), List.drop_take, Nat.add_sub_cancel_left, ih]

theorem length_of_encodeAll {fields : List Field} {values : List FieldValue} {offset : Nat}
    {bytes : Bytes} (hcount : values.length = fields.length)
    (h : encodeAll fields values offset = .ok bytes) : bytes.length = totalWidth fields := by
  induction fields generalizing values offset bytes with
  | nil =>
      cases values <;> cases h <;> rfl
  | cons field fields ih =>
      cases values with
      | nil => cases hcount
      | cons value values =>
          obtain ⟨first, rest, hfirst, hrest, rfl⟩ := encodeAll_cons_eq_ok_iff.mp h
          rw [List.length_append, length_of_encode hfirst, ih (Nat.succ.inj hcount) hrest,
            totalWidth_cons]

theorem decodeAll_of_encodeAll {fields : List Field} {values : List FieldValue} {offset : Nat}
    {bytes : Bytes} (hdistinct : ∀ field ∈ fields, field.type.BytesDistinct)
    (hcount : values.length = fields.length) (h : encodeAll fields values offset = .ok bytes) :
    decodeAll fields offset bytes = rereadAll fields values offset := by
  induction fields generalizing values offset bytes with
  | nil => rfl
  | cons field fields ih =>
      cases values with
      | nil => cases hcount
      | cons value values =>
          obtain ⟨first, rest, hfirst, hrest, rfl⟩ := encodeAll_cons_eq_ok_iff.mp h
          have hdecode := decode_of_encode (hdistinct field List.mem_cons_self) hfirst
          have htail := ih (fun f hf => hdistinct f (List.mem_cons_of_mem field hf))
            (Nat.succ.inj hcount) hrest
          rw [decodeAll, rereadAll, List.take_left' (length_of_encode hfirst),
            List.drop_left' (length_of_encode hfirst), hdecode, htail]

theorem encodeAll_of_decodeAll {fields : List Field} {offset : Nat} {bytes : Bytes}
    {entries : List (String × FieldValue)}
    (hdistinct : ∀ field ∈ fields, field.type.SymbolsDistinct)
    (hlength : bytes.length = totalWidth fields)
    (h : decodeAll fields offset bytes = .ok entries) :
    encodeAll fields (entries.map (·.2)) offset = .ok bytes := by
  induction fields generalizing offset bytes entries with
  | nil =>
      cases h
      rw [List.length_eq_zero_iff.mp hlength]
      rfl
  | cons field fields ih =>
      rw [totalWidth_cons] at hlength
      obtain ⟨value, rest, hvalue, hrest, rfl⟩ := decodeAll_cons_eq_ok_iff.mp h
      have hwindow : (bytes.take field.type.width).length = field.type.width := by
        rw [List.length_take]
        omega
      refine encodeAll_cons_eq_ok_iff.mpr ⟨_, _,
        encode_of_decode (hdistinct field List.mem_cons_self) hwindow hvalue,
        ih (fun f hf => hdistinct f (List.mem_cons_of_mem field hf)) ?_ hrest,
        (List.take_append_drop _ _).symm⟩
      rw [List.length_drop]
      omega

theorem exists_values_of_decodeAll {fields : List Field} {offset : Nat} {bytes : Bytes}
    {entries : List (String × FieldValue)} (hlength : bytes.length = totalWidth fields)
    (h : decodeAll fields offset bytes = .ok entries) :
    ∃ values, AcceptAll fields values ∧ entries = (fields.map (·.name)).zip values := by
  induction fields generalizing offset bytes entries with
  | nil => cases h; exact ⟨[], .nil, rfl⟩
  | cons field fields ih =>
      rw [totalWidth_cons] at hlength
      obtain ⟨value, rest, hvalue, hrest, rfl⟩ := decodeAll_cons_eq_ok_iff.mp h
      obtain ⟨values, hvalues, rfl⟩ := ih (by rw [List.length_drop]; omega) hrest
      refine ⟨value :: values, .cons (FieldType.accepts_of_decode ?_ hvalue) hvalues, rfl⟩
      rw [List.length_take]
      omega

/-- Whether the values stand in the buffer one after the other, the first of them at `offset`. -/
def StandAt (raw : Bytes) : Nat → List Field → List FieldValue → Prop
  | _, [], values => values = []
  | _, _ :: _, [] => False
  | offset, field :: fields, value :: values =>
    field.type.decode ((raw.drop offset).take field.type.width) = .ok value ∧
      StandAt raw (offset + field.type.width) fields values

theorem decodeAll_eq_zip_iff {fields : List Field} {values : List FieldValue} {raw : Bytes}
    {offset : Nat} (hcount : values.length = fields.length) :
    decodeAll fields offset (raw.drop offset) = .ok ((fields.map (·.name)).zip values) ↔
      StandAt raw offset fields values := by
  induction fields generalizing values offset with
  | nil =>
      obtain rfl := List.length_eq_zero_iff.mp hcount
      exact iff_of_true rfl rfl
  | cons field fields ih =>
      cases values with
      | nil => cases hcount
      | cons value values =>
          rw [decodeAll_cons_eq_ok_iff, StandAt, ← ih (Nat.succ.inj hcount), List.drop_drop]
          simp

end Field

theorem Cursor.read_eq (raw : Bytes) (cursor : Cursor) (field : Field)
    (h : cursor.offset + field.type.width ≤ raw.length) :
    Cursor.read raw cursor field =
      ((field.type.decode ((raw.drop cursor.offset).take field.type.width)).mapError
        (.field field.name cursor.offset)).map fun value =>
          ⟨cursor.offset + field.type.width, cursor.record.push field.name value⟩ := by
  have hwindow : Bytes.window? raw cursor.offset field.type.width =
      some ((raw.drop cursor.offset).take field.type.width) := if_pos h
  rw [Cursor.read, hwindow]
  dsimp only
  cases field.type.decode ((raw.drop cursor.offset).take field.type.width) <;> rfl

/-- A walk that stays inside the buffer takes its entries off the rest of the buffer. -/
theorem Cursor.foldlM_read (fields : List Field) (raw : Bytes) (cursor : Cursor)
    (h : cursor.offset + Field.totalWidth fields ≤ raw.length) :
    fields.foldlM (Cursor.read raw) cursor =
      (Field.decodeAll fields cursor.offset (raw.drop cursor.offset)).map fun entries =>
        ⟨cursor.offset + Field.totalWidth fields, ⟨cursor.record.entries ++ entries⟩⟩ := by
  induction fields generalizing cursor with
  | nil => simp [Field.decodeAll, Field.totalWidth, Except.map, pure, Except.pure]
  | cons field fields ih =>
      rw [Field.totalWidth_cons] at h
      rw [List.foldlM_cons, Cursor.read_eq _ _ _ (by omega), Field.decodeAll, Field.totalWidth_cons]
      cases field.type.decode ((raw.drop cursor.offset).take field.type.width) with
      | error cause => rfl
      | ok value =>
          change fields.foldlM (Cursor.read raw)
            ⟨cursor.offset + field.type.width, cursor.record.push field.name value⟩ = _
          rw [ih _ (by rw [Nat.add_assoc]; exact h), List.drop_drop]
          dsimp only
          cases Field.decodeAll fields (cursor.offset + field.type.width)
              (raw.drop (cursor.offset + field.type.width)) with
          | error cause => rfl
          | ok entries =>
              simp only [Except.map, bind, Except.bind, Except.mapError, pure, Except.pure,
                Record.push, List.append_assoc, List.singleton_append, Nat.add_assoc]

namespace Schema

def record (schema : Schema) (values : List FieldValue) : Record :=
  ⟨(schema.fields.map (·.name)).zip values⟩

variable {schema : Schema} {raw : Bytes} {record : Record} {values : List FieldValue}

/-- A buffer that is not too short is read first, and only then refused for being too long. -/
theorem decode_of_width_le (h : schema.width ≤ raw.length) :
    schema.decode raw = Field.decodeAll schema.fields 0 raw >>= fun entries =>
      if schema.width = raw.length then .ok ⟨entries⟩
      else .error (.schemaLength schema.width raw.length) := by
  have hwalk := Cursor.foldlM_read schema.fields raw Cursor.start
    (by rw [Cursor.start, Nat.zero_add]; exact h)
  rw [decode, if_neg (Nat.not_lt.mpr h), hwalk]
  dsimp only [Cursor.start]
  rw [List.drop_zero, Nat.zero_add]
  change _ = _ >>= fun entries => if Field.totalWidth schema.fields = raw.length then _ else _
  cases Field.decodeAll schema.fields 0 raw with
  | error cause => rfl
  | ok entries =>
      by_cases hstop : Field.totalWidth schema.fields = raw.length
      · change (if Field.totalWidth schema.fields ≠ raw.length then _ else _) = ite _ _ _
        rw [if_neg (not_not_intro hstop), if_pos hstop]
        rfl
      · change (if Field.totalWidth schema.fields ≠ raw.length then _ else _) = ite _ _ _
        rw [if_pos hstop, if_neg hstop]
        rfl

theorem decode_eq (h : raw.length = schema.width) :
    schema.decode raw = (Field.decodeAll schema.fields 0 raw).map Record.mk := by
  rw [decode_of_width_le h.ge]
  simp only [h, if_true]
  cases Field.decodeAll schema.fields 0 raw <;> rfl

theorem decode_of_length_lt (h : raw.length < schema.width) :
    schema.decode raw = .error (.schemaLength schema.width raw.length) := by
  rw [decode, if_pos h]
  rfl

theorem length_take_width (h : schema.width ≤ raw.length) :
    (raw.take schema.width).length = schema.width := by
  rw [List.length_take, Nat.min_eq_left h]

/-- Of a buffer that is too long, the front is read before the length is refused. -/
theorem decode_of_length_gt (h : schema.width < raw.length) :
    schema.decode raw = schema.decode (raw.take schema.width) >>= fun _ =>
      .error (.schemaLength schema.width raw.length) := by
  have htake : Field.decodeAll schema.fields 0 (raw.take schema.width) =
      Field.decodeAll schema.fields 0 raw := Field.decodeAll_take schema.fields 0 raw
  rw [decode_of_width_le h.le, decode_eq (length_take_width h.le), htake]
  simp only [h.ne, if_false]
  cases Field.decodeAll schema.fields 0 raw <;> rfl

theorem length_of_decode (h : schema.decode raw = .ok record) : raw.length = schema.width := by
  rcases Nat.lt_trichotomy raw.length schema.width with hshort | hlength | hlong
  · rw [decode_of_length_lt hshort] at h
    cases h
  · exact hlength
  · rw [decode_of_length_gt hlong, bind_eq_ok_iff] at h
    obtain ⟨_, _, ⟨⟩⟩ := h

theorem decode_eq_ok_iff :
    schema.decode raw = .ok record ↔
      raw.length = schema.width ∧ Field.decodeAll schema.fields 0 raw = .ok record.entries := by
  constructor
  · intro h
    have hlength := length_of_decode h
    rw [decode_eq hlength] at h
    obtain ⟨entries, hentries, rfl⟩ := map_eq_ok_iff.mp h
    exact ⟨hlength, hentries⟩
  · rintro ⟨hlength, hentries⟩
    rw [decode_eq hlength, hentries]
    rfl

theorem encode_eq_ok_iff {bytes : Bytes} :
    schema.encode values = .ok bytes ↔ values.length = schema.fields.length ∧
      Field.encodeAll schema.fields values 0 = .ok bytes := by
  rw [encode]
  split_ifs with hcount
  · exact (and_iff_right hcount).symm
  · simp [hcount]

theorem decode_eq_record_iff (hcount : values.length = schema.fields.length) :
    schema.decode raw = .ok (schema.record values) ↔
      raw.length = schema.width ∧ Field.StandAt raw 0 schema.fields values := by
  rw [decode_eq_ok_iff, ← Field.decodeAll_eq_zip_iff hcount, List.drop_zero]
  rfl

theorem exists_encode_of_acceptAll (h : Field.AcceptAll schema.fields values) :
    ∃ bytes, schema.encode values = .ok bytes := by
  obtain ⟨bytes, hbytes⟩ := Field.exists_encodeAll h 0
  exact ⟨bytes, encode_eq_ok_iff.mpr ⟨h.length_eq.symm, hbytes⟩⟩

theorem length_of_encode {bytes : Bytes} (h : schema.encode values = .ok bytes) :
    bytes.length = schema.width := by
  obtain ⟨hcount, hbytes⟩ := encode_eq_ok_iff.mp h
  exact Field.length_of_encodeAll hcount hbytes

theorem decode_of_encode {bytes : Bytes}
    (hdistinct : ∀ field ∈ schema.fields, field.type.BytesDistinct)
    (h : schema.encode values = .ok bytes) :
    schema.decode bytes = (Field.rereadAll schema.fields values 0).map Record.mk := by
  obtain ⟨hcount, hbytes⟩ := encode_eq_ok_iff.mp h
  rw [decode_eq (length_of_encode h), Field.decodeAll_of_encodeAll hdistinct hcount hbytes]

theorem exists_values_of_decode (h : schema.decode raw = .ok record) :
    ∃ values, Field.AcceptAll schema.fields values ∧ record = schema.record values := by
  obtain ⟨hlength, hentries⟩ := decode_eq_ok_iff.mp h
  obtain ⟨values, hvalues, hzip⟩ := Field.exists_values_of_decodeAll hlength hentries
  exact ⟨values, hvalues, congrArg Record.mk hzip⟩

theorem encode_of_decode (hdistinct : ∀ field ∈ schema.fields, field.type.SymbolsDistinct)
    (h : schema.decode raw = .ok record) : schema.encode record.values = .ok raw := by
  obtain ⟨hlength, hentries⟩ := decode_eq_ok_iff.mp h
  refine encode_eq_ok_iff.mpr ⟨?_, Field.encodeAll_of_decodeAll hdistinct hlength hentries⟩
  obtain ⟨values, hvalues, hzip⟩ := Field.exists_values_of_decodeAll hlength hentries
  rw [Record.values, hzip, List.length_map, List.length_zip, List.length_map, hvalues.length_eq,
    Nat.min_self]

theorem values_record (h : values.length = schema.fields.length) :
    (schema.record values).values = values := by
  rw [Schema.record, Record.values, List.map_snd_zip]
  rw [List.length_map, h]

end Schema

end VaultWire
