import VaultWire.ProgramFailure
import VaultWire.Proofs.Command.Grammar
import VaultWire.Proofs.Schema.Refusal

/-!
# Refused payloads

A payload is refused because it is empty, because its first byte names no operation, because the
bytes after it are refused by the layout of the operation, or for the decimals of a new mint. The
values that a layout has read make a command, so nothing else is ever reported.
-/

namespace VaultWire

namespace Opcode

theorem namesDistinct_schema (opcode : Opcode) : opcode.schema.NamesDistinct := by
  cases opcode <;> simp [schema, Schema.NamesDistinct]

theorem ofByte?_eq_none_iff {byte : UInt8} :
    ofByte? byte = none ↔ ∀ opcode : Opcode, opcode.byte ≠ byte := by
  constructor
  · rintro h opcode rfl
    rw [ofByte?_byte] at h
    cases h
  · intro h
    cases hopcode : ofByte? byte with
    | none => rfl
    | some opcode => exact absurd (byte_of_ofByte? hopcode) (h opcode)

end Opcode

namespace Command

variable {bytes : Bytes} {cause : CodecError}

/-- The look-ups by name succeed on what was read with the layout of the operation. -/
theorem exists_ofRecord_of_decode {opcode : Opcode} {rest : Bytes} {record : Record}
    (h : opcode.schema.decode rest = .ok record) :
    ∃ command, ofRecord opcode record = .ok command := by
  obtain ⟨command, rfl, rfl⟩ := exists_record_of_decode h
  exact ⟨command, ofRecord_record command⟩

theorem decode_token2022Mint_iff {rest : Bytes} {decimals : UInt8} :
    Opcode.token2022Mint.schema.decode rest = .ok (token2022Mint decimals).record ↔
      rest = [decimals] := by
  refine (Schema.decode_eq_record_iff rfl).trans ?_
  constructor
  · rintro ⟨hlength, hvalue, -⟩
    obtain ⟨byte, rfl⟩ := List.length_eq_one_iff.mp hlength
    rw [(Bytes.decode_byte_iff le_rfl).mp hvalue]
    rfl
  · rintro rfl
    exact ⟨rfl, (Bytes.decode_byte_iff le_rfl).mpr rfl, rfl⟩

theorem check_eq_error_iff {command : Command} :
    command.check = .error cause ↔ ∃ decimals, command = .token2022Mint decimals ∧ 18 < decimals ∧
      cause = .field "decimals" 0 (.decimalsOutOfRange decimals 18) := by
  cases command with
  | token2022Mint decimals =>
      by_cases h : 18 < decimals
      · rw [check_token2022Mint h, Except.error.injEq]
        simp [h, eq_comm]
      · have hcheck : (token2022Mint decimals).check = .ok () := if_neg h
        rw [hcheck]
        refine iff_of_false nofun ?_
        rintro ⟨_, ⟨⟩, hlt, -⟩
        exact h hlt
  | _ => exact iff_of_false nofun nofun

/-- The payloads that are refused, each with what is reported of it. -/
inductive Refused : Bytes → CodecError → Prop
  | empty : Refused [] .emptyPayload
  | unknown {first : UInt8} {rest : Bytes} (h : ∀ opcode : Opcode, opcode.byte ≠ first) :
      Refused (first :: rest) (.unknownDiscriminator first)
  | arguments {opcode : Opcode} {rest : Bytes} {cause : CodecError}
      (h : opcode.schema.decode rest = .error cause) : Refused (opcode.byte :: rest) cause
  | decimals {decimals : UInt8} (h : 18 < decimals) :
      Refused [2, decimals] (.field "decimals" 0 (.decimalsOutOfRange decimals 18))

theorem refused_of_unpack_eq_error (h : unpack bytes = .error cause) : Refused bytes cause := by
  cases bytes with
  | nil =>
      obtain rfl := Except.error.inj h
      exact .empty
  | cons first rest =>
      cases hopcode : Opcode.ofByte? first with
      | none =>
          rw [unpack, hopcode] at h
          obtain rfl := Except.error.inj h
          exact .unknown (Opcode.ofByte?_eq_none_iff.mp hopcode)
      | some opcode =>
          obtain rfl := Opcode.byte_of_ofByte? hopcode
          cases hread : opcode.schema.decode rest with
          | error other =>
              rw [unpack_of_decode_eq_error hread] at h
              obtain rfl := Except.error.inj h
              exact .arguments hread
          | ok record =>
              obtain ⟨command, rfl, rfl⟩ := exists_record_of_decode hread
              rw [unpack_of_decode hread, map_eq_error_iff] at h
              obtain ⟨decimals, rfl, hdecimals, rfl⟩ := check_eq_error_iff.mp h
              obtain rfl := decode_token2022Mint_iff.mp hread
              exact .decimals hdecimals

theorem unpack_eq_error_iff : unpack bytes = .error cause ↔ Refused bytes cause := by
  refine ⟨refused_of_unpack_eq_error, fun h => ?_⟩
  cases h with
  | empty => rfl
  | unknown h => rw [unpack, Opcode.ofByte?_eq_none_iff.mpr h]
  | arguments h => exact unpack_of_decode_eq_error h
  | @decimals decimals h =>
      have hread : (token2022Mint decimals).opcode.schema.decode [decimals] =
          .ok (token2022Mint decimals).record := decode_token2022Mint_iff.mpr rfl
      exact (unpack_of_decode hread).trans (map_eq_error_iff.mpr (check_token2022Mint h))

namespace Refused

theorem eq_emptyPayload_iff (h : Refused bytes cause) : cause = .emptyPayload ↔ bytes = [] := by
  cases h with
  | empty => exact iff_of_true rfl rfl
  | unknown h => exact iff_of_false nofun nofun
  | @arguments opcode _ _ h =>
      rcases Schema.refusal_of_decode opcode.namesDistinct_schema h with
        rfl | ⟨field, -, offset, source, rfl, -⟩
      · exact iff_of_false nofun nofun
      · exact iff_of_false nofun nofun
  | decimals h => exact iff_of_false nofun nofun

theorem eq_unknownDiscriminator_iff (h : Refused bytes cause) {value : UInt8} :
    cause = .unknownDiscriminator value ↔
      ∃ rest, bytes = value :: rest ∧ ∀ opcode : Opcode, opcode.byte ≠ value := by
  have hknown {opcode : Opcode} {first : UInt8} {rest : Bytes} (hfirst : first = opcode.byte) :
      ¬ ∃ other, first :: rest = value :: other ∧ ∀ opcode : Opcode, opcode.byte ≠ value := by
    rintro ⟨other, hbytes, hunknown⟩
    exact hunknown opcode (hfirst.symm.trans (List.cons.inj hbytes).1)
  cases h with
  | empty => exact iff_of_false nofun (by simp)
  | @unknown first rest h =>
      rw [CodecError.unknownDiscriminator.injEq]
      constructor
      · rintro rfl
        exact ⟨rest, rfl, h⟩
      · rintro ⟨other, hbytes, -⟩
        exact (List.cons.inj hbytes).1
  | @arguments opcode _ _ h =>
      rcases Schema.refusal_of_decode opcode.namesDistinct_schema h with
        rfl | ⟨field, -, offset, source, rfl, -⟩
      · exact iff_of_false nofun (hknown rfl)
      · exact iff_of_false nofun (hknown rfl)
  | decimals h =>
      have hfirst : 2 = Opcode.token2022Mint.byte := rfl
      exact iff_of_false nofun (hknown hfirst)

/-- Behind the byte of an operation, a refusal is about the length of the arguments or about one of
them. -/
theorem of_arguments {opcode : Opcode} {rest : Bytes} (h : Refused (opcode.byte :: rest) cause) :
    cause = .schemaLength opcode.schema.width rest.length ∨
      ∃ field ∈ opcode.schema.fields, ∃ offset source, cause = .field field.name offset source ∧
        opcode.schema.offsetOf? field.name = some offset ∧
        (field.type.Fault source ∨ ∃ decimals, source = .decimalsOutOfRange decimals 18) := by
  -- The payload is freed of its first byte, so that the cases can be told from it.
  generalize hbytes : opcode.byte :: rest = bytes at h
  cases h with
  | empty => cases hbytes
  | unknown h => exact absurd (List.cons.inj hbytes).1 (h opcode)
  | arguments h =>
      obtain ⟨hbyte, rfl⟩ := List.cons.inj hbytes
      obtain rfl := Opcode.byte_injective hbyte
      rcases Schema.refusal_of_decode opcode.namesDistinct_schema h with
        hlength | ⟨field, hmem, offset, source, hcause, hoffset, hfault⟩
      · exact .inl hlength
      · exact .inr ⟨field, hmem, offset, source, hcause, hoffset, .inl hfault⟩
  | decimals h =>
      have hbyte : opcode.byte = Opcode.token2022Mint.byte := (List.cons.inj hbytes).1
      obtain rfl := Opcode.byte_injective hbyte
      exact .inr ⟨_, List.mem_cons_self, 0, _, rfl, rfl, .inr ⟨_, rfl⟩⟩

/-- The annotation with the field is looked through, and its own number never reported. -/
theorem exists_number (h : Refused bytes cause) :
    ∃ number ∈ [2, 4, 5, 10, 11, 12, 17], cause.toProgramError = .custom number := by
  cases h with
  | empty => exact ⟨11, by decide, rfl⟩
  | unknown h => exact ⟨12, by decide, rfl⟩
  | @arguments opcode _ _ h =>
      rcases Schema.refusal_of_decode opcode.namesDistinct_schema h with
        rfl | ⟨⟨name, type⟩, -, offset, source, rfl, -, hfault⟩
      · exact ⟨5, by decide, rfl⟩
      · cases hfault with
        | bool byte => exact ⟨2, by decide, rfl⟩
        | enum table byte => exact ⟨2, by decide, rfl⟩
        | text width length => exact ⟨4, by decide, rfl⟩
        | padding width index value => exact ⟨10, by decide, rfl⟩
  | decimals h => exact ⟨17, by decide, rfl⟩

end Refused

/-- What is reported of a payload that does not unpack. No refusal comes from the look-ups by name,
for these succeed on every record that was read. -/
theorem refusal_of_unpack :
    (∀ bytes cause, unpack bytes = .error cause →
      (cause = .emptyPayload ↔ bytes = []) ∧
      (∀ value, cause = .unknownDiscriminator value ↔
        ∃ rest, bytes = value :: rest ∧ ∀ opcode : Opcode, opcode.byte ≠ value) ∧
      (∀ opcode rest, bytes = Opcode.byte opcode :: rest →
        ∃ schema, Opcode.schemaOf? opcode.byte = some schema ∧
          (cause = .schemaLength schema.width rest.length ∨
            ∃ field ∈ schema.fields, ∃ offset source, cause = .field field.name offset source ∧
              schema.offsetOf? field.name = some offset ∧
              (field.type.Fault source ∨ ∃ decimals, source = .decimalsOutOfRange decimals 18))) ∧
      ∃ number ∈ [2, 4, 5, 10, 11, 12, 17], cause.toProgramError = .custom number) ∧
    ∀ opcode rest record, (Opcode.schema opcode).decode rest = .ok record →
      ∃ command, ofRecord opcode record = .ok command := by
  refine ⟨fun bytes cause h => ?_, fun opcode rest record => exists_ofRecord_of_decode⟩
  have hrefused := unpack_eq_error_iff.mp h
  refine ⟨hrefused.eq_emptyPayload_iff, fun value => hrefused.eq_unknownDiscriminator_iff, ?_,
    hrefused.exists_number⟩
  rintro opcode rest rfl
  refine ⟨opcode.schema, ?_, hrefused.of_arguments⟩
  rw [Opcode.schemaOf?, Opcode.ofByte?_byte]
  rfl

/-- The byte 255 is no text, and the label it stands in begins at byte 10 of the arguments; a record
of decimals was read, and makes a command even if they are too many. -/
theorem refusal_of_unpack_label :
    (∃ number ∈ [2, 4, 5, 10, 11, 12, 17],
      (CodecError.field "label" 10 (.invalidText 1)).toProgramError = .custom number) ∧
    ∃ command, ofRecord .token2022Mint ⟨[("decimals", .uint 19)]⟩ = .ok command := by
  obtain ⟨hrefused, hread⟩ := refusal_of_unpack
  have hlabel : unpack ([12, 1, 1] ++ Bytes.zeros 8 ++ 255 :: Bytes.zeros 31) =
      .error (.field "label" 10 (.invalidText 1)) := by rfl
  obtain ⟨-, -, -, hnumber⟩ := hrefused _ _ hlabel
  exact ⟨hnumber, hread .token2022Mint [19] _ rfl⟩

end Command

end VaultWire
