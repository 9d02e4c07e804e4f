import VaultWire.Proofs.Schema

/-!
# Buffers and records

Reading determines the buffer: the values of a record that was read are written to the bytes it was
read from. Writing determines the values up to text, which comes back cut at the width of its field
and without the U+0000 at its end, or not at all if the cut splits a character.
-/

namespace VaultWire

namespace FieldType

/-- Whether a field gives a value back as it was: text has to fit, all else does. -/
def Fits : FieldType → FieldValue → Prop
  | text width, .text content => Text.Fits width content
  | _, _ => True

/-- Whether a field leaves the characters of a value whole. -/
def Whole : FieldType → FieldValue → Prop
  | text width, .text content => Text.WholeAt width content
  | _, _ => True

/-- What a field keeps of a value: the front of a text without the U+0000 at its end, and all of
any other value. -/
def Keeps : FieldType → FieldValue → FieldValue → Prop
  | text width, .text content, kept =>
    ∃ front, Text.utf8 front = (Text.utf8 content).take width ∧
      kept = .text (Text.withoutNuls front)
  | _, value, kept => kept = value

variable {type : FieldType} {value kept : FieldValue} {cause : CodecError}

theorem reread_eq_self_iff : type.reread value = .ok value ↔ type.Fits value := by
  cases type <;> cases value <;> try exact iff_of_true rfl trivial
  case text.text width content =>
    change (Text.decode (Text.encode content width)).map FieldValue.text = _ ↔
      Text.Fits width content
    rw [map_eq_ok_iff, ← Text.decode_encode_eq_self_iff]
    simp only [FieldValue.text.injEq, exists_eq_right]

theorem reread_eq_ok_iff : type.reread value = .ok kept ↔ type.Keeps value kept := by
  cases type <;> cases value <;>
    try exact ⟨fun h => (Except.ok.inj h).symm, fun h => congrArg Except.ok h.symm⟩
  case text.text width content =>
    change (Text.decode (Text.encode content width)).map FieldValue.text = _ ↔ _
    rw [map_eq_ok_iff, Keeps]
    constructor
    · rintro ⟨_, hread, rfl⟩
      obtain ⟨front, hfront, rfl⟩ := Text.decode_encode_eq_ok_iff.mp hread
      exact ⟨front, hfront, rfl⟩
    · rintro ⟨front, hfront, rfl⟩
      exact ⟨_, Text.decode_encode_of_front hfront, rfl⟩

theorem reread_eq_error_iff :
    type.reread value = .error cause ↔ ¬ type.Whole value ∧ cause = .invalidText type.width := by
  cases type <;> cases value <;> try exact iff_of_false nofun (fun h => h.1 trivial)
  case text.text width content =>
    change (Text.decode (Text.encode content width)).map FieldValue.text = _ ↔ _
    rw [map_eq_error_iff]
    exact Text.decode_encode_eq_error_iff

theorem whole_of_keeps (h : type.Keeps value kept) : type.Whole value := by
  by_contra hsplit
  have hread := reread_eq_error_iff.mpr ⟨hsplit, rfl⟩
  rw [reread_eq_ok_iff.mpr h] at hread
  cases hread

end FieldType

namespace Field

variable {fields : List Field} {values : List FieldValue}

theorem rereadAll_cons_eq_ok_iff {field : Field} {value : FieldValue} {offset : Nat}
    {entries : List (String × FieldValue)} :
    rereadAll (field :: fields) (value :: values) offset = .ok entries ↔
      ∃ kept rest, field.type.reread value = .ok kept ∧
        rereadAll fields values (offset + field.type.width) = .ok rest ∧
        entries = (field.name, kept) :: rest := by
  rw [rereadAll]
  exact mapError_bind_bind_eq_ok_iff

theorem rereadAll_eq_self_iff (hcount : values.length = fields.length) (offset : Nat) :
    rereadAll fields values offset = .ok ((fields.map (·.name)).zip values) ↔
      ∀ pair ∈ fields.zip values, pair.1.type.Fits pair.2 := by
  induction fields generalizing values offset with
  | nil => exact iff_of_true rfl nofun
  | cons field fields ih =>
      cases values with
      | nil => cases hcount
      | cons value values =>
          rw [rereadAll_cons_eq_ok_iff, List.zip_cons_cons, List.forall_mem_cons,
            ← ih (Nat.succ.inj hcount) (offset + field.type.width), ← FieldType.reread_eq_self_iff]
          simp

/-- The entries that come back, or the refusal of the first text cut through a character. -/
theorem rereadAll_cases (hcount : values.length = fields.length) (offset : Nat) :
    (∃ before field value after, fields.zip values = before ++ (field, value) :: after ∧
      (∀ pair ∈ before, pair.1.type.Whole pair.2) ∧ ¬ field.type.Whole value ∧
      rereadAll fields values offset =
        .error (.field field.name (offset + totalWidth (before.map (·.1)))
          (.invalidText field.type.width))) ∨
    ∃ kept, List.Forall₂ (fun pair kept => pair.1.type.Keeps pair.2 kept) (fields.zip values) kept ∧
      rereadAll fields values offset = .ok ((fields.map (·.name)).zip kept) := by
  induction fields generalizing values offset with
  | nil => exact .inr ⟨[], .nil, rfl⟩
  | cons field fields ih =>
      cases values with
      | nil => cases hcount
      | cons value values =>
          cases hread : field.type.reread value with
          | error cause =>
              obtain ⟨hsplit, rfl⟩ := FieldType.reread_eq_error_iff.mp hread
              refine .inl ⟨[], field, value, fields.zip values, rfl, nofun, hsplit, ?_⟩
              rw [rereadAll, hread]
              rfl
          | ok kept =>
              have hkept := FieldType.reread_eq_ok_iff.mp hread
              rcases ih (Nat.succ.inj hcount) (offset + field.type.width) with
                ⟨before, other, content, after, hzip, hwhole, hsplit, hrest⟩ |
                ⟨rest, hrest, hall⟩
              · refine .inl ⟨(field, value) :: before, other, content, after, ?_, ?_, hsplit, ?_⟩
                · rw [List.zip_cons_cons, hzip, List.cons_append]
                · exact List.forall_mem_cons.mpr ⟨FieldType.whole_of_keeps hkept, hwhole⟩
                · rw [rereadAll, hread, hrest, List.map_cons, totalWidth_cons, ← Nat.add_assoc]
                  rfl
              · refine .inr ⟨kept :: rest, .cons hkept hrest, ?_⟩
                exact rereadAll_cons_eq_ok_iff.mpr ⟨kept, _, hread, hall, rfl⟩

end Field

namespace Schema

variable {schema : Schema} {raw bytes : Bytes} {record : Record} {values : List FieldValue}

theorem names_of_decode (h : schema.decode raw = .ok record) :
    record.entries.map (·.1) = schema.fields.map (·.name) := by
  obtain ⟨values, hvalues, rfl⟩ := exists_values_of_decode h
  refine List.map_fst_zip ?_
  rw [List.length_map, hvalues.length_eq]

/-- A record that was read has the fields of the layout and is written to the bytes it was read
from, so no other bytes read as the same record. -/
theorem canonical_of_decode (hdistinct : ∀ field ∈ schema.fields, field.type.SymbolsDistinct)
    (h : schema.decode raw = .ok record) :
    record.entries.map (·.1) = schema.fields.map (·.name) ∧
      schema.encode record.values = .ok raw ∧
      ∀ other, schema.decode other = .ok record → other = raw := by
  have hencode := encode_of_decode hdistinct h
  refine ⟨names_of_decode h, hencode, fun other hother => ?_⟩
  have hother' := encode_of_decode hdistinct hother
  rw [hencode] at hother'
  exact (Except.ok.inj hother').symm

/-- Names repeat, one field has no bytes, and two symbols share a byte. -/
theorem canonical_of_decode_repeated :
    encode ⟨"mixed", [⟨"n", .uint 3⟩, ⟨"", .padding 0⟩, ⟨"n", .text 3⟩,
        ⟨"n", .enum ⟨"switch", [(1, "On"), (1, "Up"), (0, "Off")]⟩⟩]⟩
      [.uint 5, .padding, .text "é", .enum "On"] = .ok [5, 0, 0, 195, 169, 0, 1] := by
  have hread : decode ⟨"mixed", [⟨"n", .uint 3⟩, ⟨"", .padding 0⟩, ⟨"n", .text 3⟩,
        ⟨"n", .enum ⟨"switch", [(1, "On"), (1, "Up"), (0, "Off")]⟩⟩]⟩ [5, 0, 0, 195, 169, 0, 1] =
      .ok ⟨[("n", .uint 5), ("", .padding), ("n", .text "é"), ("n", .enum "On")]⟩ := by rfl
  refine (canonical_of_decode ?_ hread).2.1
  simp [FieldType.SymbolsDistinct, EnumTable.SymbolsDistinct]

theorem decode_of_encode_eq_record_iff
    (hdistinct : ∀ field ∈ schema.fields, field.type.BytesDistinct)
    (h : schema.encode values = .ok bytes) :
    schema.decode bytes = .ok (schema.record values) ↔
      ∀ pair ∈ schema.fields.zip values, pair.1.type.Fits pair.2 := by
  obtain ⟨hcount, -⟩ := encode_eq_ok_iff.mp h
  rw [decode_of_encode hdistinct h, map_eq_ok_iff, ← Field.rereadAll_eq_self_iff hcount 0]
  constructor
  · rintro ⟨entries, hentries, hrecord⟩
    rw [hentries]
    exact congrArg (Except.ok ∘ Record.entries) hrecord
  · intro hentries
    exact ⟨_, hentries, rfl⟩

/-- What is read back after writing: the values themselves exactly if every text fits its field, and
in any case no values but texts are altered. -/
theorem reread_of_encode (hdistinct : ∀ field ∈ schema.fields, field.type.BytesDistinct)
    (h : schema.encode values = .ok bytes) :
    (schema.decode bytes = .ok (schema.record values) ↔
      ∀ pair ∈ schema.fields.zip values, pair.1.type.Fits pair.2) ∧
    ((∃ before field value after, schema.fields.zip values = before ++ (field, value) :: after ∧
        (∀ pair ∈ before, pair.1.type.Whole pair.2) ∧ ¬ field.type.Whole value ∧
        schema.decode bytes =
          .error (.field field.name (Field.totalWidth (before.map (·.1)))
            (.invalidText field.type.width))) ∨
      ∃ kept, List.Forall₂ (fun pair kept => pair.1.type.Keeps pair.2 kept)
          (schema.fields.zip values) kept ∧
        schema.decode bytes = .ok (schema.record kept)) := by
  refine ⟨decode_of_encode_eq_record_iff hdistinct h, ?_⟩
  obtain ⟨hcount, -⟩ := encode_eq_ok_iff.mp h
  rw [decode_of_encode hdistinct h]
  rcases Field.rereadAll_cases hcount 0 with
    ⟨before, field, value, after, hzip, hwhole, hsplit, hreread⟩ | ⟨kept, hkept, hreread⟩
  · refine .inl ⟨before, field, value, after, hzip, hwhole, hsplit, ?_⟩
    rw [hreread, Nat.zero_add]
    rfl
  · refine .inr ⟨kept, hkept, ?_⟩
    rw [hreread]
    rfl

/-- A text that fits comes back; one that ends in U+0000 does not. -/
theorem reread_of_encode_nul :
    decode ⟨"labels", [⟨"x", .text 2⟩, ⟨"x", .text 0⟩, ⟨"", .bool⟩]⟩ [195, 169, 1] =
      .ok ⟨[("x", .text "é"), ("x", .text ""), ("", .bool true)]⟩ ∧
    decode ⟨"labels", [⟨"x", .text 2⟩, ⟨"x", .text 0⟩, ⟨"", .bool⟩]⟩ [97, 0, 1] ≠
      .ok ⟨[("x", .text "a\x00"), ("x", .text ""), ("", .bool true)]⟩ := by
  have hdistinct : ∀ field ∈ ([⟨"x", .text 2⟩, ⟨"x", .text 0⟩, ⟨"", .bool⟩] : List Field),
      field.type.BytesDistinct := by simp [FieldType.BytesDistinct]
  have hfit : encode ⟨"labels", [⟨"x", .text 2⟩, ⟨"x", .text 0⟩, ⟨"", .bool⟩]⟩
      [.text "é", .text "", .bool true] = .ok [195, 169, 1] := by rfl
  have hnul : encode ⟨"labels", [⟨"x", .text 2⟩, ⟨"x", .text 0⟩, ⟨"", .bool⟩]⟩
      [.text "a\x00", .text "", .bool true] = .ok [97, 0, 1] := by rfl
  constructor
  · refine (reread_of_encode hdistinct hfit).1.mpr ?_
    simp only [List.zip_cons_cons, List.zip_nil_left, List.forall_mem_cons, FieldType.Fits]
    exact ⟨⟨by decide, by decide⟩, ⟨by decide, by decide⟩, trivial, nofun⟩
  · intro h
    have hfits := (reread_of_encode hdistinct hnul).1.mp h _ List.mem_cons_self
    exact hfits.2 (by decide)

end Schema

end VaultWire
