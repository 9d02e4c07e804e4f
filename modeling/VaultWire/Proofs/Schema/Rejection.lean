import VaultWire.Proofs.Integer
import VaultWire.Proofs.Schema.Places

/-!
# Rejected values

Values are rejected for their number, whatever they are, and otherwise for the first of them that its
field does not take. A value of the wrong kind is reported with the kind of the field; a number that
is too large and a symbol that is not in the table are reported with the offset of the field.
-/

namespace VaultWire

namespace FieldType

/-- Whether a value is of the kind that fields of this type hold. -/
def TakesKind : FieldType → FieldValue → Prop
  | uint _, .uint _ => True
  | bool, .bool _ => True
  | enum _, .enum _ => True
  | address, .address _ => True
  | text _, .text _ => True
  | padding _, .padding => True
  | _, _ => False

/-- The cause for which a value of the right kind does not fit into a field of this type. -/
inductive Misfit : FieldType → FieldValue → CodecError → Prop
  | overflow {width n : Nat} :
      256 ^ width ≤ n → Misfit (.uint width) (.uint n) (.overflow (toString n) width)
  | unknownSymbol {table : EnumTable} {symbol : String} : symbol ∉ table.entries.map (·.2) →
      Misfit (.enum table) (.enum symbol) (.unknownSymbol table.name symbol)

end FieldType

namespace Field

/-- What is reported of a value that the field, which starts at `offset`, does not take. -/
inductive Rejects (field : Field) (offset : Nat) (value : FieldValue) : CodecError → Prop
  | kind : ¬ field.type.TakesKind value →
      Rejects field offset value (.typeMismatch field.name field.type.kind)
  | misfit {source : CodecError} : field.type.Misfit value source →
      Rejects field offset value (.field field.name offset source)

variable {field : Field} {fields : List Field} {value : FieldValue} {values : List FieldValue}
  {offset : Nat} {cause : CodecError}

theorem encode_eq_error_iff :
    field.encode value = .error cause ↔
      ¬ field.type.TakesKind value ∧ cause = .typeMismatch field.name field.type.kind ∨
      field.type.Misfit value cause := by
  obtain ⟨name, type⟩ := field
  -- All pairs of a type and a value of another kind are alike.
  cases type <;> cases value <;> try exact
    ⟨fun h => .inl ⟨id, (Except.error.inj h).symm⟩, fun | .inl h => congrArg Except.error h.2.symm⟩
  case uint.uint width n =>
    change Integer.encode n width = _ ↔ _
    rw [Integer.encode_natCast_eq_error_iff]
    constructor
    · rintro ⟨hlarge, rfl⟩
      exact .inr (.overflow hlarge)
    · rintro (⟨hkind, -⟩ | hmisfit)
      · exact absurd trivial hkind
      · cases hmisfit with
        | overflow hlarge => exact ⟨hlarge, rfl⟩
  case enum.enum table symbol =>
    change (table.encode symbol).map ([·]) = _ ↔ _
    rw [map_eq_error_iff, EnumTable.encode_eq_error_iff]
    constructor
    · rintro ⟨hsymbol, rfl⟩
      exact .inr (.unknownSymbol hsymbol)
    · rintro (⟨hkind, -⟩ | hmisfit)
      · exact absurd trivial hkind
      · cases hmisfit with
        | unknownSymbol hsymbol => exact ⟨hsymbol, rfl⟩
  all_goals
    refine iff_of_false nofun ?_
    rintro (⟨hkind, -⟩ | hmisfit)
    · exact hkind trivial
    · cases hmisfit

theorem annotate_of_misfit {type : FieldType} (h : type.Misfit value cause) (field : Field)
    (offset : Nat) : field.annotate offset cause = .field field.name offset cause := by
  cases h with
  | overflow _ => rfl
  | unknownSymbol _ => rfl

/-- Only a wrong kind is reported without the offset of the field. -/
theorem annotated_eq_error_iff :
    (field.encode value).mapError (field.annotate offset) = .error cause ↔
      field.Rejects offset value cause := by
  rw [mapError_eq_error_iff]
  constructor
  · rintro ⟨source, hsource, rfl⟩
    rcases encode_eq_error_iff.mp hsource with ⟨hkind, rfl⟩ | hmisfit
    · exact .kind hkind
    · rw [annotate_of_misfit hmisfit]
      exact .misfit hmisfit
  · intro h
    cases h with
    | kind hkind => exact ⟨_, encode_eq_error_iff.mpr (.inl ⟨hkind, rfl⟩), rfl⟩
    | misfit hmisfit =>
        exact ⟨_, encode_eq_error_iff.mpr (.inr hmisfit), annotate_of_misfit hmisfit _ _⟩

theorem not_accepts_of_encode (h : field.encode value = .error cause) :
    ¬ field.type.Accepts value := by
  intro haccepts
  obtain ⟨bytes, hbytes⟩ := exists_encode_of_accepts haccepts
  rw [h] at hbytes
  cases hbytes

theorem not_accepts_of_rejects (h : field.Rejects offset value cause) :
    ¬ field.type.Accepts value := by
  obtain ⟨source, hsource, -⟩ := mapError_eq_error_iff.mp (annotated_eq_error_iff.mpr h)
  exact not_accepts_of_encode hsource

theorem encodeAll_cons_eq_error_iff :
    encodeAll (field :: fields) (value :: values) offset = .error cause ↔
      field.Rejects offset value cause ∨
      field.type.Accepts value ∧
        encodeAll fields values (offset + field.type.width) = .error cause := by
  rw [← annotated_eq_error_iff, encodeAll]
  cases hencode : field.encode value with
  | error source =>
      have hrejected : ¬ field.type.Accepts value := not_accepts_of_encode hencode
      exact ⟨.inl, fun h => h.resolve_right fun hrest => hrejected hrest.1⟩
  | ok bytes =>
      have haccepts : field.type.Accepts value := (encode_eq_ok_iff.mp hencode).1
      rw [← length_of_encode hencode]
      change (encodeAll fields values (offset + bytes.length) >>= fun rest => pure (bytes ++ rest)) =
        _ ↔ Except.ok bytes = _ ∨ _
      cases encodeAll fields values (offset + bytes.length) with
      | error other =>
          change Except.error other = _ ↔ _
          simp [haccepts]
      | ok rest =>
          change Except.ok (bytes ++ rest) = _ ↔ _
          simp

/-- Writing stops at the first value that its field does not take. -/
theorem encodeAll_eq_error_iff (hcount : values.length = fields.length) :
    encodeAll fields values offset = .error cause ↔
      ∃ k field value, fields[k]? = some field ∧ values[k]? = some value ∧
        AcceptAll (fields.take k) (values.take k) ∧
        field.Rejects (offset + offsetAt fields k) value cause := by
  induction fields generalizing values offset with
  | nil => exact iff_of_false nofun nofun
  | cons first fields ih =>
      cases values with
      | nil => cases hcount
      | cons front values =>
          rw [encodeAll_cons_eq_error_iff, ih (Nat.succ.inj hcount)]
          constructor
          · rintro (hreject | ⟨haccepts, k, field, value, hfield, hvalue, hbefore, hreject⟩)
            · exact ⟨0, first, front, rfl, rfl, .nil, hreject⟩
            · refine ⟨k + 1, field, value, hfield, hvalue, .cons haccepts hbefore, ?_⟩
              rwa [offsetAt_cons_succ, ← Nat.add_assoc]
          · rintro ⟨k, field, value, hfield, hvalue, hbefore, hreject⟩
            cases k with
            | zero =>
                cases hfield
                cases hvalue
                exact .inl hreject
            | succ k =>
                -- The first value is one of those that were accepted.
                obtain ⟨haccepts, hrest⟩ := List.forall₂_cons.mp hbefore
                rw [offsetAt_cons_succ, ← Nat.add_assoc] at hreject
                exact .inr ⟨haccepts, k, field, value, hfield, hvalue, hrest, hreject⟩

end Field

namespace Schema

variable {schema : Schema} {values : List FieldValue} {cause : CodecError}

theorem encode_eq_error_iff :
    schema.encode values = .error cause ↔
      values.length ≠ schema.fields.length ∧
        cause = .fieldCount schema.name schema.fields.length values.length ∨
      values.length = schema.fields.length ∧ ∃ k field value,
        schema.fields[k]? = some field ∧ values[k]? = some value ∧
        Field.AcceptAll (schema.fields.take k) (values.take k) ∧
        field.Rejects (schema.offsetAt k) value cause := by
  unfold encode
  split_ifs with hcount
  · rw [Field.encodeAll_eq_error_iff hcount]
    simp [hcount, offsetAt]
  · simp [hcount, eq_comm]

theorem exists_encode_iff :
    (∃ out, schema.encode values = .ok out) ↔ Field.AcceptAll schema.fields values := by
  constructor
  · rintro ⟨out, hout⟩
    exact (encode_eq_ok_iff_written.mp hout).1
  · exact exists_encode_of_acceptAll

/-- Values are written exactly if each field takes its value. Otherwise their number is reported, if
it is not that of the fields, and else the first value that is not taken: without an offset if it is
of another kind than its field, and with the offset of the field if it is a number that is too large
or a symbol that is not in the table. -/
theorem outcome_of_values (schema : Schema) (values : List FieldValue) :
    (schema.encode values =
        .error (.fieldCount schema.name schema.fields.length values.length) ↔
      values.length ≠ schema.fields.length) ∧
    ((∃ out, schema.encode values = .ok out) ↔ Field.AcceptAll schema.fields values) ∧
    ∀ cause, schema.encode values = .error cause ↔
      values.length ≠ schema.fields.length ∧
        cause = .fieldCount schema.name schema.fields.length values.length ∨
      values.length = schema.fields.length ∧ ∃ k field value,
        schema.fields[k]? = some field ∧ values[k]? = some value ∧
        Field.AcceptAll (schema.fields.take k) (values.take k) ∧
        ¬ field.type.Accepts value ∧ field.Rejects (schema.offsetAt k) value cause := by
  refine ⟨?_, exists_encode_iff, ?_⟩
  · rw [encode_eq_error_iff]
    constructor
    · rintro (⟨hcount, -⟩ | ⟨-, k, field, value, -, -, -, hreject⟩)
      · exact hcount
      · cases hreject
    · intro hcount
      exact .inl ⟨hcount, rfl⟩
  · intro cause
    rw [encode_eq_error_iff]
    constructor
    · rintro (hcount | ⟨hcount, k, field, value, hfield, hvalue, hbefore, hreject⟩)
      · exact .inl hcount
      · exact .inr ⟨hcount, k, field, value, hfield, hvalue, hbefore,
          Field.not_accepts_of_rejects hreject, hreject⟩
    · rintro (hcount | ⟨hcount, k, field, value, hfield, hvalue, hbefore, -, hreject⟩)
      · exact .inl hcount
      · exact .inr ⟨hcount, k, field, value, hfield, hvalue, hbefore, hreject⟩

-- The number is reported and not the value of the wrong kind behind it.
example :
    encode ⟨"mixed", [⟨"live", .bool⟩, ⟨"n", .uint 1⟩, ⟨"", .text 0⟩]⟩
      [.bool true, .uint 256, .bool true] = .error (.field "n" 1 (.overflow "256" 1)) := by
  rfl

end Schema

end VaultWire
