import VaultWire.ProgramFailure
import VaultWire.Proofs.Account.RoundTrip
import VaultWire.Proofs.Schema.Refusal

/-!
# Buffers of the wrong length

A buffer that is too short is always refused for its length. Of a buffer that is too long, the bytes
that the layout takes are read first, so it is refused for its length only if they can be read, and
for the first fault in them otherwise. Layouts of numbers and addresses have no such faults.
-/

namespace VaultWire

namespace FieldType

/-- Whether all bytes are good for a field of this type. -/
def Unrestricted : FieldType → Prop
  | uint _ | address => True
  | _ => False

theorem exists_decode_of_unrestricted {type : FieldType} {bytes : Bytes} (h : type.Unrestricted)
    (hlength : bytes.length = type.width) : ∃ value, type.decode bytes = .ok value := by
  cases type with
  | uint width => exact ⟨_, rfl⟩
  | address => exact ⟨_, decode_address_eq_ok_iff.mpr ⟨⟨bytes, hlength⟩, rfl, rfl⟩⟩
  | bool => exact h.elim
  | enum table => exact h.elim
  | text width => exact h.elim
  | padding width => exact h.elim

end FieldType

namespace Field

theorem exists_decodeAll_of_unrestricted {fields : List Field} {bytes : Bytes}
    (h : ∀ field ∈ fields, field.type.Unrestricted) (hlength : bytes.length = totalWidth fields)
    (offset : Nat) : ∃ entries, decodeAll fields offset bytes = .ok entries := by
  induction fields generalizing bytes offset with
  | nil => exact ⟨[], rfl⟩
  | cons field fields ih =>
      rw [totalWidth_cons] at hlength
      obtain ⟨hfield, hfields⟩ := List.forall_mem_cons.mp h
      have hwindow : (bytes.take field.type.width).length = field.type.width := by
        rw [List.length_take]
        omega
      have hrest : (bytes.drop field.type.width).length = totalWidth fields := by
        rw [List.length_drop]
        omega
      obtain ⟨value, hvalue⟩ := FieldType.exists_decode_of_unrestricted hfield hwindow
      obtain ⟨entries, hentries⟩ := ih hfields hrest (offset + field.type.width)
      exact ⟨_, decodeAll_cons_eq_ok_iff.mpr ⟨value, entries, hvalue, hentries, rfl⟩⟩

end Field

namespace Schema

variable {schema : Schema} {raw : Bytes}

theorem exists_decode_of_unrestricted (h : ∀ field ∈ schema.fields, field.type.Unrestricted)
    (hlength : raw.length = schema.width) : ∃ record, schema.decode raw = .ok record := by
  obtain ⟨entries, hentries⟩ := Field.exists_decodeAll_of_unrestricted h hlength 0
  exact ⟨⟨entries⟩, decode_eq_ok_iff.mpr ⟨hlength, hentries⟩⟩

/-- The front of a buffer has the right length, so it is not refused for that. -/
theorem decode_take_ne_schemaLength (h : schema.width ≤ raw.length) (expected actual : Nat) :
    schema.decode (raw.take schema.width) ≠ .error (.schemaLength expected actual) := by
  intro herror
  rw [decode_eq (length_take_width h), map_eq_error_iff] at herror
  obtain ⟨_, _, _, _, -, -, -, ⟨⟩⟩ := Field.decodeAll_eq_error_iff.mp herror

theorem decode_eq_schemaLength_iff (h : raw.length ≠ schema.width) :
    schema.decode raw = .error (.schemaLength schema.width raw.length) ↔
      raw.length < schema.width ∨ ∃ record, schema.decode (raw.take schema.width) = .ok record := by
  rcases Nat.lt_or_gt_of_ne h with hshort | hlong
  · exact iff_of_true (decode_of_length_lt hshort) (.inl hshort)
  · rw [decode_of_length_gt hlong, or_iff_right (Nat.lt_asymm hlong)]
    cases hfront : schema.decode (raw.take schema.width) with
    | error cause =>
        refine iff_of_false (fun herror => ?_) nofun
        obtain rfl := Except.error.inj herror
        exact decode_take_ne_schemaLength hlong.le _ _ hfront
    | ok record => exact iff_of_true rfl ⟨record, rfl⟩

theorem decode_of_take_eq_error {cause : CodecError} (hlong : schema.width < raw.length)
    (h : schema.decode (raw.take schema.width) = .error cause) :
    schema.decode raw = .error cause := by
  rw [decode_of_length_gt hlong, h]
  rfl

end Schema

namespace Packed

variable {α : Type} [Packed α] [LawfulPacked α] {raw : Bytes}

theorem unpack_eq_schemaLength_iff (h : raw.length ≠ (schema α).width) :
    (unpack raw : Except CodecError α) = .error (.schemaLength (schema α).width raw.length) ↔
      raw.length < (schema α).width ∨
        ∃ account : α, unpack (raw.take (schema α).width) = .ok account := by
  rw [unpack_eq_error_iff, Schema.decode_eq_schemaLength_iff h, exists_unpack_iff]

end Packed

namespace Escrow

theorem unrestricted_schema : ∀ field ∈ schema.fields, field.type.Unrestricted := by
  simp [schema, FieldType.Unrestricted]

theorem exists_unpack {raw : Bytes} (h : raw.length = schema.width) :
    ∃ escrow : Escrow, Packed.unpack raw = .ok escrow :=
  Packed.exists_unpack_iff.mpr (Schema.exists_decode_of_unrestricted unrestricted_schema h)

theorem unpack_of_length_ne {raw : Bytes} (h : raw.length ≠ schema.width) :
    (Packed.unpack raw : Except CodecError Escrow) =
      .error (.schemaLength schema.width raw.length) := by
  refine (Packed.unpack_eq_schemaLength_iff h).mpr ?_
  rcases Nat.lt_or_gt_of_ne h with hshort | hlong
  · exact .inl hshort
  · exact .inr (exists_unpack (Schema.length_take_width hlong.le))

end Escrow

namespace Command

theorem unpack_eq_error_iff_of_length_ne {opcode : Opcode} {arguments : Bytes} {cause : CodecError}
    (h : arguments.length ≠ opcode.schema.width) :
    unpack (opcode.byte :: arguments) = .error cause ↔
      opcode.schema.decode arguments = .error cause := by
  cases hread : opcode.schema.decode arguments with
  | ok record => exact absurd (Schema.length_of_decode hread) h
  | error other =>
      rw [unpack_of_decode_eq_error hread, Except.error.injEq, Except.error.injEq]

end Command

/-- What is reported of bytes of the wrong length, as a buffer of any layout, as a config, as an
escrow and behind the first byte of a payload. The number of a wrong length is five. -/
theorem reported_of_length_ne (raw : Bytes) :
    (∀ schema : Schema, raw.length ≠ schema.width →
      (schema.decode raw = .error (.schemaLength schema.width raw.length) ↔
        raw.length < schema.width ∨
          ∃ record, schema.decode (raw.take schema.width) = .ok record) ∧
      ∀ cause, schema.width < raw.length →
        schema.decode (raw.take schema.width) = .error cause → schema.decode raw = .error cause) ∧
    (raw.length ≠ 287 →
      ((Packed.unpack raw : Except CodecError Config) = .error (.schemaLength 287 raw.length) ↔
        raw.length < 287 ∨ ∃ config : Config, Packed.unpack (raw.take 287) = .ok config)) ∧
    (raw.length ≠ 105 →
      (Packed.unpack raw : Except CodecError Escrow) = .error (.schemaLength 105 raw.length)) ∧
    (∀ opcode : Opcode, raw.length ≠ opcode.schema.width →
      (Command.unpack (opcode.byte :: raw) =
          .error (.schemaLength opcode.schema.width raw.length) ↔
        raw.length < opcode.schema.width ∨
          ∃ record, opcode.schema.decode (raw.take opcode.schema.width) = .ok record)) ∧
    ∀ expected actual, (CodecError.schemaLength expected actual).toProgramError = .custom 5 := by
  refine ⟨fun schema h => ?_, fun h => ?_, fun h => ?_, fun opcode h => ?_, fun _ _ => rfl⟩
  · exact ⟨Schema.decode_eq_schemaLength_iff h, fun _ => Schema.decode_of_take_eq_error⟩
  · exact Packed.unpack_eq_schemaLength_iff h
  · exact Escrow.unpack_of_length_ne h
  · rw [Command.unpack_eq_error_iff_of_length_ne h]
    exact Schema.decode_eq_schemaLength_iff h

/-- One byte too many after a flag, which is read first, and one after an escrow. -/
theorem reported_of_length_ne_flag :
    Schema.decode ⟨"switch", [⟨"live", .bool⟩]⟩ [1, 5] = .error (.schemaLength 1 2) ∧
      Schema.decode ⟨"switch", [⟨"live", .bool⟩]⟩ [2, 5] =
        .error (.field "live" 0 (.invalidEnum "bool" 2)) ∧
      (Packed.unpack (Bytes.zeros 106) : Except CodecError Escrow) =
        .error (.schemaLength 105 106) := by
  have hread := (reported_of_length_ne [1, 5]).1 ⟨"switch", [⟨"live", .bool⟩]⟩ (by decide)
  have hfault := (reported_of_length_ne [2, 5]).1 ⟨"switch", [⟨"live", .bool⟩]⟩ (by decide)
  have hescrow := (reported_of_length_ne (Bytes.zeros 106)).2.2.1 (by decide)
  exact ⟨hread.1.mpr (.inr ⟨_, rfl⟩), hfault.2 _ (by decide) rfl, hescrow⟩

/-- A config with one byte too many whose flag is neither zero nor one is refused for the flag. -/
theorem not_schemaLength_of_overlong_flag :
    (Bytes.zeros 284 ++ 2 :: Bytes.zeros 3).length ≠ Config.schema.width ∧
      Config.schema.decode (Bytes.zeros 284 ++ 2 :: Bytes.zeros 3) ≠
        .error (.schemaLength 287 288) ∧
      (Packed.unpack (Bytes.zeros 284 ++ 2 :: Bytes.zeros 3) : Except CodecError Config) =
        .error (.field "is_authorized" 284 (.invalidEnum "bool" 2)) := by
  have hdecode : Config.schema.decode (Bytes.zeros 284 ++ 2 :: Bytes.zeros 3) =
      .error (.field "is_authorized" 284 (.invalidEnum "bool" 2)) := by decide +kernel
  refine ⟨by decide +kernel, ?_, Packed.unpack_eq_error_iff.mpr hdecode⟩
  rw [hdecode]
  nofun

end VaultWire
