import VaultWire.Proofs.Schema.Refusal
import VaultWire.Proofs.Trap
import VaultWire.Proofs.Window

/-!
# Reading within bounds

A program that indexes a buffer or adds machine words is stopped where an index is outside the buffer
or a sum too large for a word. Reading is written out here with both dangers: each byte and each
slice is asked of the buffer, each sum has to fit, and the width of the layout is summed up in a loop
of its own. If the width fits in a word, nothing stops the reader on any buffer, and it reads what
the layout says. What keeps it going is that the offset of the walk is the width of the fields behind
it, and that a buffer that is shorter than all fields together is refused before the walk.
-/

namespace VaultWire

namespace Checked

/-- The bytes of a field at an offset: one byte for a flag or a symbol, and a slice for all else. -/
def window (limit : Nat) (raw : Bytes) (offset : Nat) : FieldType → Except Trap Bytes
  | .bool | .enum _ => do return [← byte raw offset]
  | .uint width | .text width | .padding width => do
    slice raw offset (← sum limit offset width)
  | .address => do slice raw offset (← sum limit offset Address.width)

/-- The width of the fields, added to what those before them have. -/
def width (limit : Nat) (total : Nat) (fields : List Field) : Except Trap Nat :=
  fields.foldlM (fun total field => sum limit total field.type.width) total

def walk (limit : Nat) (raw : Bytes) (cursor : Cursor) :
    List Field → Except Trap (Except CodecError Cursor)
  | [] => return .ok cursor
  | field :: rest => do
    let window ← window limit raw cursor.offset field.type
    match field.type.decode window with
    | .error cause => return .error (.field field.name cursor.offset cause)
    | .ok value =>
      let stop ← sum limit cursor.offset field.type.width
      walk limit raw ⟨stop, cursor.record.push field.name value⟩ rest

def decode (limit : Nat) (schema : Schema) (raw : Bytes) :
    Except Trap (Except CodecError Record) := do
  let expected ← width limit 0 schema.fields
  if raw.length < expected then
    return .error (.schemaLength expected raw.length)
  match ← walk limit raw Cursor.start schema.fields with
  | .error cause => return .error cause
  | .ok cursor =>
    if cursor.offset ≠ raw.length then
      return .error (.schemaLength cursor.offset raw.length)
    return .ok cursor.record

variable {limit : Nat} {raw : Bytes}

theorem window_of_le {offset : Nat} {type : FieldType} (hlimit : offset + type.width < limit)
    (h : offset + type.width ≤ raw.length) :
    window limit raw offset type = .ok ((raw.drop offset).take type.width) := by
  have hslice : (do slice raw offset (← sum limit offset type.width)) =
      .ok ((raw.drop offset).take type.width) := by
    rw [sum_of_lt hlimit]
    exact slice_of_le h
  have hbyte (hone : type.width = 1) :
      (do return [← byte raw offset]) = Except.ok ((raw.drop offset).take type.width) := by
    rw [hone] at h ⊢
    rw [byte_of_lt h, Bytes.window_one h, Bytes.byteAt_eq_getElem h]
    rfl
  cases type with
  | bool => exact hbyte rfl
  | enum table => exact hbyte rfl
  | _ => exact hslice

theorem width_of_lt {total : Nat} {fields : List Field}
    (h : total + Field.totalWidth fields < limit) :
    width limit total fields = .ok (total + Field.totalWidth fields) := by
  induction fields generalizing total with
  | nil => rfl
  | cons field fields ih =>
      rw [Field.totalWidth_cons, ← Nat.add_assoc] at h
      have hsum : total + field.type.width < limit := by omega
      rw [Field.totalWidth_cons, width, List.foldlM_cons, sum_of_lt hsum, ← Nat.add_assoc]
      exact ih h

/-- The walk meets no trap as long as the fields before it and those that follow are in the buffer
together. -/
theorem walk_of_le {cursor : Cursor} {fields : List Field}
    (hlimit : cursor.offset + Field.totalWidth fields < limit)
    (h : cursor.offset + Field.totalWidth fields ≤ raw.length) :
    walk limit raw cursor fields = .ok (fields.foldlM (Cursor.read raw) cursor) := by
  induction fields generalizing cursor with
  | nil => rfl
  | cons field fields ih =>
      rw [Field.totalWidth_cons, ← Nat.add_assoc] at hlimit h
      have hfits : cursor.offset + field.type.width < limit := by omega
      have hinside : cursor.offset + field.type.width ≤ raw.length := by omega
      rw [walk, window_of_le hfits hinside, List.foldlM_cons, Cursor.read_eq _ _ _ hinside]
      change (match field.type.decode _ with | .error _ => _ | .ok _ => _) = _
      cases field.type.decode ((raw.drop cursor.offset).take field.type.width) with
      | error cause => rfl
      | ok value =>
          change (sum limit cursor.offset field.type.width >>= fun _ => _) = _
          rw [sum_of_lt hfits]
          exact ih hlimit h

/-- Nothing stops the reader if the width of the layout is a machine word. -/
theorem decode_of_lt {schema : Schema} (h : schema.width < limit) (raw : Bytes) :
    decode limit schema raw = .ok (schema.decode raw) := by
  have hsum : 0 + Field.totalWidth schema.fields < limit := by rwa [Nat.zero_add]
  have hwidth : width limit 0 schema.fields = .ok schema.width := by
    rw [width_of_lt hsum, Nat.zero_add, Schema.width]
  rw [decode, hwidth, Schema.decode]
  change (if raw.length < schema.width then _ else _) = _
  by_cases hshort : raw.length < schema.width
  · rw [if_pos hshort, if_pos hshort]
    rfl
  · have hinside : 0 + Field.totalWidth schema.fields ≤ raw.length := by
      rw [Nat.zero_add]
      exact Nat.not_lt.mp hshort
    have hwalk : walk limit raw Cursor.start schema.fields =
        .ok (schema.fields.foldlM (Cursor.read raw) Cursor.start) := walk_of_le hsum hinside
    rw [if_neg hshort, if_neg hshort, hwalk]
    cases schema.fields.foldlM (Cursor.read raw) Cursor.start with
    | error cause => rfl
    | ok cursor =>
        change (if cursor.offset ≠ raw.length then _ else _) =
          Except.ok (if cursor.offset ≠ raw.length then _ else _)
        by_cases hstop : cursor.offset ≠ raw.length
        · rw [if_pos hstop, if_pos hstop]
          rfl
        · rw [if_neg hstop, if_neg hstop]
          rfl

/-- The walk alone would not notice that the buffer ends before the second field. -/
example : walk 8 [1] Cursor.start [⟨"first", .bool⟩, ⟨"second", .bool⟩] =
    .error (.outside 1 2 1) := rfl

end Checked

namespace Cursor

variable {raw : Bytes} {cursor next : Cursor} {field : Field} {fields : List Field}

theorem offset_of_read (h : read raw cursor field = .ok next) :
    next.offset = cursor.offset + field.type.width := by
  rw [read] at h
  cases hwindow : Bytes.window? raw cursor.offset field.type.width with
  | none =>
      rw [hwindow] at h
      cases h
  | some window =>
      rw [hwindow] at h
      obtain ⟨value, -, hnext⟩ := bind_eq_ok_iff.mp h
      cases hnext
      rfl

theorem offset_of_foldlM (h : fields.foldlM (read raw) cursor = .ok next) :
    next.offset = cursor.offset + Field.totalWidth fields := by
  induction fields generalizing cursor with
  | nil =>
      cases h
      rfl
  | cons field fields ih =>
      rw [List.foldlM_cons] at h
      obtain ⟨middle, hread, hrest⟩ := bind_eq_ok_iff.mp h
      rw [ih hrest, offset_of_read hread, Field.totalWidth_cons, Nat.add_assoc]

end Cursor

namespace Schema

variable {schema : Schema} {limit : Nat} {raw : Bytes} {cursor : Cursor} {field : Field}
  {before after : List Field}

theorem offset_of_walk (h : schema.fields.foldlM (Cursor.read raw) Cursor.start = .ok cursor) :
    cursor.offset = schema.width := by
  rw [Cursor.offset_of_foldlM h, Cursor.start, Nat.zero_add, width]

/-- What holds whenever the walk comes to a field: its offset is the width of the fields behind it,
and those and the field are within the layout. -/
theorem offset_of_walk_before (hfields : schema.fields = before ++ field :: after)
    (h : before.foldlM (Cursor.read raw) Cursor.start = .ok cursor) :
    cursor.offset = Field.totalWidth before ∧
      cursor.offset + field.type.width ≤ schema.width := by
  have hoffset : cursor.offset = Field.totalWidth before := by
    rw [Cursor.offset_of_foldlM h, Cursor.start, Nat.zero_add]
  refine ⟨hoffset, ?_⟩
  rw [hoffset, width, hfields, Field.totalWidth_append, Field.totalWidth_cons]
  omega

/-- Reading is not stopped by a sum or an index if the width of the layout is a machine word: a
buffer that is too short is refused before the walk, and in all others each field that the walk comes
to lies in the layout and so in the buffer. Where the walk ends it has come as far as the layout. -/
theorem decode_in_bounds (h : schema.width < limit) (raw : Bytes) :
    Checked.decode limit schema raw = .ok (schema.decode raw) ∧
    (raw.length < schema.width →
      schema.decode raw = .error (.schemaLength schema.width raw.length)) ∧
    (schema.width ≤ raw.length → ∀ before field after cursor,
      schema.fields = before ++ field :: after →
      before.foldlM (Cursor.read raw) Cursor.start = .ok cursor →
      cursor.offset = Field.totalWidth before ∧
      cursor.offset + field.type.width ≤ schema.width ∧
      ∃ window, Bytes.window? raw cursor.offset field.type.width = some window ∧
        Checked.window limit raw cursor.offset field.type = .ok window) ∧
    ∀ cursor, schema.fields.foldlM (Cursor.read raw) Cursor.start = .ok cursor →
      cursor.offset = schema.width := by
  refine ⟨Checked.decode_of_lt h raw, decode_of_length_lt, ?_, fun cursor => offset_of_walk⟩
  intro hlength before field after cursor hfields hwalk
  obtain ⟨hoffset, hwidth⟩ := offset_of_walk_before hfields hwalk
  have hinside : cursor.offset + field.type.width ≤ raw.length := hwidth.trans hlength
  exact ⟨hoffset, hwidth, _, if_pos hinside,
    Checked.window_of_le (hwidth.trans_lt h) hinside⟩

/-- A layout that ends with a single byte and a field of no bytes. -/
def edge : Schema :=
  ⟨"edge", [⟨"flag", .bool⟩, ⟨"status", .enum Status.table⟩, ⟨"end", .padding 0⟩]⟩

/-- The last byte and the empty slice behind it are within the buffer. -/
theorem decode_in_bounds_edge :
    edge.width < 3 ∧
      Checked.decode 3 edge [1, 4] =
        .ok (.ok ⟨[("flag", .bool true), ("status", .enum "Canceled"), ("end", .padding)]⟩) ∧
      Checked.window 3 [1, 4] 2 (.padding 0) = .ok [] := by
  have hwidth : edge.width < 3 := by decide
  obtain ⟨hdecode, -, hwindow, -⟩ := decode_in_bounds hwidth [1, 4]
  refine ⟨hwidth, hdecode.trans rfl, ?_⟩
  obtain ⟨-, -, window, hin, hchecked⟩ := hwindow (by decide)
    [⟨"flag", .bool⟩, ⟨"status", .enum Status.table⟩] ⟨"end", .padding 0⟩ []
    ⟨2, ⟨[("flag", .bool true), ("status", .enum "Canceled")]⟩⟩ rfl rfl
  cases hin
  exact hchecked

end Schema

end VaultWire
