import VaultWire.Proofs.Schema.Refusal
import VaultWire.Proofs.Window

/-!
# Places in a layout

A field stands behind the fields before it, so its offset is the sum of their widths. A buffer that
is written holds the bytes of each value in the place of its field. Two buffers whose values differ
in one field, or in a run of fields, are therefore the same outside the place of that field or run.
-/

namespace VaultWire

theorem eq_take_append_of_getElem? {α : Type} {l : List α} {i : Nat} {a : α}
    (h : l[i]? = some a) : l = l.take i ++ a :: l.drop (i + 1) := by
  obtain ⟨hi, rfl⟩ := List.getElem?_eq_some_iff.mp h
  rw [List.getElem_cons_drop, List.take_append_drop]

/-- Whether two byte strings of one length have the same byte in every place, the `width` places from
`offset` on apart. -/
structure Bytes.AgreeOutside (offset width : Nat) (a b : Bytes) : Prop where
  length_eq : a.length = b.length
  getElem?_eq : ∀ place, place < offset ∨ offset + width ≤ place → a[place]? = b[place]?

theorem Bytes.agreeOutside_of_take_of_drop {offset width : Nat} {a b : Bytes}
    (hlength : a.length = b.length) (htake : a.take offset = b.take offset)
    (hdrop : a.drop (offset + width) = b.drop (offset + width)) :
    Bytes.AgreeOutside offset width a b := by
  refine ⟨hlength, ?_⟩
  intro place hplace
  rcases hplace with hbefore | hbehind
  · rw [← List.getElem?_take_of_lt hbefore, htake, List.getElem?_take_of_lt hbefore]
  · obtain ⟨rest, rfl⟩ := Nat.exists_eq_add_of_le hbehind
    rw [← List.getElem?_drop, hdrop, List.getElem?_drop]

namespace Field

/-- The offset of the field at index `i`. -/
def offsetAt (fields : List Field) (i : Nat) : Nat := totalWidth (fields.take i)

variable {field : Field} {fields : List Field} {value : FieldValue} {values : List FieldValue}
  {i j : Nat}

@[simp] theorem offsetAt_zero (fields : List Field) : offsetAt fields 0 = 0 := rfl

@[simp] theorem offsetAt_cons_succ (field : Field) (fields : List Field) (i : Nat) :
    offsetAt (field :: fields) (i + 1) = field.type.width + offsetAt fields i :=
  totalWidth_cons field (fields.take i)

theorem offsetAt_take (h : i ≤ j) : offsetAt (fields.take j) i = offsetAt fields i := by
  rw [offsetAt, List.take_take, Nat.min_eq_left h, offsetAt]

theorem totalWidth_of_getElem? (h : fields[i]? = some field) :
    totalWidth fields =
      offsetAt fields i + (field.type.width + totalWidth (fields.drop (i + 1))) := by
  rw [offsetAt, ← totalWidth_cons, ← totalWidth_append, ← eq_take_append_of_getElem? h]

theorem offsetAt_add_width_le (h : fields[i]? = some field) :
    offsetAt fields i + field.type.width ≤ totalWidth fields := by
  rw [totalWidth_of_getElem? h]
  omega

theorem offsetAt_succ (h : fields[i]? = some field) :
    offsetAt fields (i + 1) = offsetAt fields i + field.type.width := by
  rw [offsetAt, List.take_add_one, h, totalWidth_append]
  rfl

theorem take_writtenAll (h : AcceptAll fields values) (i : Nat) :
    (writtenAll fields values).take (offsetAt fields i) =
      writtenAll (fields.take i) (values.take i) := by
  induction h generalizing i with
  | nil => simp
  | @cons field value fields values hvalue _ ih =>
      cases i with
      | zero => rfl
      | succ i =>
          rw [offsetAt_cons_succ, writtenAll_cons, ← length_written hvalue,
            List.take_length_add_append, ih]
          rfl

theorem drop_writtenAll (h : AcceptAll fields values) (i : Nat) :
    (writtenAll fields values).drop (offsetAt fields i) =
      writtenAll (fields.drop i) (values.drop i) := by
  induction h generalizing i with
  | nil => simp
  | @cons field value fields values hvalue _ ih =>
      cases i with
      | zero => rfl
      | succ i =>
          rw [offsetAt_cons_succ, writtenAll_cons, ← length_written hvalue,
            List.drop_length_add_append, ih]
          rfl

theorem accepts_of_getElem? (h : AcceptAll fields values) (hfield : fields[i]? = some field)
    (hvalue : values[i]? = some value) : field.type.Accepts value := by
  obtain ⟨hi, rfl⟩ := List.getElem?_eq_some_iff.mp hfield
  obtain ⟨hi', rfl⟩ := List.getElem?_eq_some_iff.mp hvalue
  exact h.get hi hi'

/-- In the place of a field stand the bytes of its value. -/
theorem window_writtenAll (h : AcceptAll fields values) (hfield : fields[i]? = some field)
    (hvalue : values[i]? = some value) :
    ((writtenAll fields values).drop (offsetAt fields i)).take field.type.width =
      field.type.written value := by
  have haccepts : field.type.Accepts value := accepts_of_getElem? h hfield hvalue
  obtain ⟨hi, rfl⟩ := List.getElem?_eq_some_iff.mp hfield
  obtain ⟨hi', rfl⟩ := List.getElem?_eq_some_iff.mp hvalue
  rw [drop_writtenAll h, List.drop_eq_getElem_cons hi, List.drop_eq_getElem_cons hi',
    writtenAll_cons]
  exact List.take_left' (length_written haccepts)

end Field

namespace Schema

/-- The offset of the field at index `i`, the sum of the widths of the fields before it. -/
def offsetAt (schema : Schema) (i : Nat) : Nat := Field.offsetAt schema.fields i

variable {schema : Schema} {field : Field} {value : FieldValue} {values others : List FieldValue}
  {out other : Bytes} {i j : Nat}

/-- The offset of a name is that of the first field with this name. -/
theorem offsetOf?_of_first (h : schema.fields[i]? = some field)
    (hfirst : ∀ k < i, ∀ earlier ∈ schema.fields[k]?, earlier.name ≠ field.name) :
    schema.offsetOf? field.name = some (schema.offsetAt i) := by
  have hbefore : ∀ earlier ∈ schema.fields.take i, earlier.name ≠ field.name := by
    intro earlier hmem
    obtain ⟨k, hk⟩ := List.mem_iff_getElem?.mp hmem
    have hlt : k < i := by
      by_contra hge
      rw [List.getElem?_eq_none (by rw [List.length_take]; omega)] at hk
      cases hk
    rw [List.getElem?_take_of_lt hlt] at hk
    exact hfirst k hlt earlier hk
  rw [offsetOf?, eq_take_append_of_getElem? h, Field.offsetFrom?_append hbefore, Nat.zero_add]
  rfl

theorem window_of_encode (h : schema.encode values = .ok out)
    (hfield : schema.fields[i]? = some field) (hvalue : values[i]? = some value) :
    field.encode value = .ok (Bytes.bytesAt out (schema.offsetAt i) field.type.width) := by
  obtain ⟨haccept, rfl⟩ := encode_eq_ok_iff_written.mp h
  refine Field.encode_eq_ok_iff.mpr ⟨Field.accepts_of_getElem? haccept hfield hvalue, ?_⟩
  exact Field.window_writtenAll haccept hfield hvalue

/-- Buffers whose values differ only in the fields from index `i` up to `j` differ only there. -/
theorem agreeOutside_of_encode (h : schema.encode values = .ok out)
    (h' : schema.encode others = .ok other) (htake : others.take i = values.take i)
    (hdrop : others.drop j = values.drop j) {width : Nat}
    (hplace : schema.offsetAt j = schema.offsetAt i + width) :
    Bytes.AgreeOutside (schema.offsetAt i) width other out := by
  have hlength : other.length = out.length := (length_of_encode h').trans (length_of_encode h).symm
  obtain ⟨haccept, rfl⟩ := encode_eq_ok_iff_written.mp h
  obtain ⟨haccept', rfl⟩ := encode_eq_ok_iff_written.mp h'
  apply Bytes.agreeOutside_of_take_of_drop hlength
  · rw [offsetAt, Field.take_writtenAll haccept', Field.take_writtenAll haccept, htake]
  · rw [← hplace, offsetAt, Field.drop_writtenAll haccept', Field.drop_writtenAll haccept, hdrop]

/-- A buffer that is written has the width of its layout, and in the place of each field stands the
encoding of its value, which is where the name of the field is found. What is written for other
values in place of one of them is the same outside the place of this one. -/
theorem windows_of_encode (h : schema.encode values = .ok out) :
    out.length = schema.width ∧
    (∀ i field value, schema.fields[i]? = some field → values[i]? = some value →
      schema.offsetAt i + field.type.width ≤ out.length ∧
      field.encode value = .ok (Bytes.bytesAt out (schema.offsetAt i) field.type.width) ∧
      ((∀ k < i, ∀ earlier ∈ schema.fields[k]?, earlier.name ≠ field.name) →
        schema.offsetOf? field.name = some (schema.offsetAt i))) ∧
    ∀ others other, schema.encode others = .ok other →
      ∀ i field, schema.fields[i]? = some field → (∀ k ≠ i, others[k]? = values[k]?) →
        Bytes.AgreeOutside (schema.offsetAt i) field.type.width other out := by
  have hlength : out.length = schema.width := length_of_encode h
  refine ⟨hlength, ?_, ?_⟩
  · intro i field value hfield hvalue
    refine ⟨?_, window_of_encode h hfield hvalue, offsetOf?_of_first hfield⟩
    rw [hlength]
    exact Field.offsetAt_add_width_le hfield
  · intro others other hother i field hfield hsame
    have htake : others.take i = values.take i := by
      apply List.ext_getElem?
      intro k
      rw [List.getElem?_take, List.getElem?_take]
      split_ifs with hk
      · exact hsame k hk.ne
      · rfl
    have hdrop : others.drop (i + 1) = values.drop (i + 1) := by
      apply List.ext_getElem?
      intro k
      rw [List.getElem?_drop, List.getElem?_drop]
      exact hsame (i + 1 + k) (by omega)
    exact agreeOutside_of_encode h hother htake hdrop (Field.offsetAt_succ hfield)

/-- A text of three bytes between a field without bytes and a flag, and another text in its place. -/
theorem windows_of_encode_text :
    Field.encode ⟨"n", .text 3⟩ (.text "é") = .ok [195, 169, 0] ∧
      offsetOf? ⟨"mixed", [⟨"n", .uint 2⟩, ⟨"", .text 0⟩, ⟨"n", .text 3⟩, ⟨"live", .bool⟩]⟩ "live" =
        some 5 ∧
      Bytes.AgreeOutside 2 3 [5, 0, 97, 98, 99, 1] [5, 0, 195, 169, 0, 1] := by
  have hencode : encode
      ⟨"mixed", [⟨"n", .uint 2⟩, ⟨"", .text 0⟩, ⟨"n", .text 3⟩, ⟨"live", .bool⟩]⟩
      [.uint 5, .text "cut", .text "é", .bool true] = .ok [5, 0, 195, 169, 0, 1] := by rfl
  have hother : encode
      ⟨"mixed", [⟨"n", .uint 2⟩, ⟨"", .text 0⟩, ⟨"n", .text 3⟩, ⟨"live", .bool⟩]⟩
      [.uint 5, .text "cut", .text "abcd", .bool true] = .ok [5, 0, 97, 98, 99, 1] := by rfl
  obtain ⟨-, hplaces, hsame⟩ := windows_of_encode hencode
  refine ⟨(hplaces 2 _ _ rfl rfl).2.1, (hplaces 3 _ _ rfl rfl).2.2 ?_, hsame _ _ hother 2 _ rfl ?_⟩
  · intro k hk earlier hearlier
    match k with
    | 0 | 1 | 2 => cases hearlier; decide
  · intro k hk
    match k with
    | 0 | 1 | 3 => rfl
    | 2 => exact absurd rfl hk
    | k + 4 => rfl

end Schema

end VaultWire
