import VaultWire.Proofs.Account.RoundTrip
import VaultWire.Proofs.Window

/-!
# The places of accounts

Where each value of an account stands in its buffer, in terms of the bytes alone. A buffer is the
one written for an account, or is read as it, exactly if its values stand in these places; only of a
label is something else written than what is read back.
-/

namespace VaultWire

open Bytes

/-- Whether the values of a config, its label apart, stand in their places. -/
@[mk_iff]
structure Config.LaidOut (config : Config) (raw : Bytes) : Prop where
  length : raw.length = 287
  mints : config.mints.toList.map Address.bytes = [0, 32, 64, 96].map (bytesAt raw · 32)
  authority : config.authority.bytes = bytesAt raw 128 32
  owner : config.owner.bytes = bytesAt raw 160 32
  admin : config.admin.bytes = bytesAt raw 192 32
  fee : config.fee.toNat = numberAt raw 256 8
  solBalance : config.solBalance.toNat = numberAt raw 264 8
  tokenBalance : config.tokenBalance.toNat = numberAt raw 272 8
  updatedAt : config.updatedAt.toNat = numberAt raw 280 4
  isAuthorized : config.isAuthorized.toUInt8 = byteAt raw 284
  status : config.status.byte = byteAt raw 285
  bump : config.bump = byteAt raw 286

@[mk_iff]
structure Escrow.LaidOut (escrow : Escrow) (raw : Bytes) : Prop where
  length : raw.length = 105
  maker : escrow.maker.bytes = bytesAt raw 0 32
  mintMaker : escrow.mintMaker.bytes = bytesAt raw 32 32
  mintTaker : escrow.mintTaker.bytes = bytesAt raw 64 32
  amount : escrow.amount.toNat = numberAt raw 96 8
  bump : escrow.bump = byteAt raw 104

variable {raw : Bytes}

namespace Packed

variable {α : Type} [Packed α] [LawfulPacked α] {account : α}

theorem pack_eq_ok_iff_writtenAt :
    pack account = .ok raw ↔
      raw.length = (schema α).width ∧ Field.WrittenAt raw 0 (schema α).fields (values account) :=
  Schema.encode_eq_ok_iff_writtenAt (LawfulPacked.acceptAll_values account)

theorem unpack_eq_ok_iff_standAt :
    unpack raw = .ok account ↔
      raw.length = (schema α).width ∧ Field.StandAt raw 0 (schema α).fields (values account) :=
  unpack_eq_ok_iff.trans
    (Schema.decode_eq_record_iff (LawfulPacked.acceptAll_values account).length_eq.symm)

end Packed

namespace Config

theorem writtenAt_values_iff {config : Config} (hlength : raw.length = schema.width) :
    Field.WrittenAt raw 0 schema.fields config.values ↔
      config.LaidOut raw ∧ bytesAt raw 224 32 = Wire.text 32 config.label := by
  -- With the length known, every window lies inside the buffer.
  change raw.length = 287 at hlength
  simp (disch := omega) only [schema, values, Quad.toList, List.map_cons, List.map_nil,
    List.cons_append, List.nil_append, Field.WrittenAt, FieldType.width, Text.labelWidth,
    Nat.zero_add, Nat.reduceAdd, FieldType.written_address, FieldType.written_text,
    FieldType.written_word64, FieldType.written_word32, FieldType.written_bool,
    FieldType.written_status, FieldType.written_byte, take_eq_address_iff, take_eq_word64_iff,
    take_eq_word32_iff, take_eq_byte_iff, laidOut_iff, List.cons.injEq, hlength]
  rw [bytesAt]
  tauto

theorem standAt_values_iff {config : Config} (hlength : raw.length = schema.width) :
    Field.StandAt raw 0 schema.fields config.values ↔
      config.LaidOut raw ∧ Text.utf8 config.label = labelAt raw 224 := by
  change raw.length = 287 at hlength
  simp (disch := omega) only [schema, values, Quad.toList, List.map_cons, List.map_nil,
    List.cons_append, List.nil_append, Field.StandAt, FieldType.width, Text.labelWidth,
    Nat.zero_add, Nat.reduceAdd, decode_address_iff, decode_flag_iff, decode_word64_iff,
    decode_word32_iff, decode_byte_iff, decode_status_iff, decode_label_iff, laidOut_iff,
    List.cons.injEq, hlength]
  tauto

theorem pack_eq_ok_iff {config : Config} :
    Packed.pack config = .ok raw ↔
      config.LaidOut raw ∧ bytesAt raw 224 32 = Wire.text 32 config.label := by
  refine (Packed.pack_eq_ok_iff_writtenAt.trans (and_congr_right writtenAt_values_iff)).trans ?_
  exact and_iff_right_of_imp fun h => h.1.length

theorem unpack_eq_ok_iff {config : Config} :
    Packed.unpack raw = .ok config ↔
      config.LaidOut raw ∧ Text.utf8 config.label = labelAt raw 224 := by
  refine (Packed.unpack_eq_ok_iff_standAt.trans (and_congr_right standAt_values_iff)).trans ?_
  exact and_iff_right_of_imp fun h => h.1.length

end Config

namespace Escrow

theorem writtenAt_values_iff {escrow : Escrow} (hlength : raw.length = schema.width) :
    Field.WrittenAt raw 0 schema.fields escrow.values ↔ escrow.LaidOut raw := by
  change raw.length = 105 at hlength
  simp (disch := omega) only [schema, values, Field.WrittenAt, FieldType.width, Nat.zero_add,
    Nat.reduceAdd, FieldType.written_address, FieldType.written_word64, FieldType.written_byte,
    take_eq_address_iff, take_eq_word64_iff, take_eq_byte_iff, laidOut_iff, hlength, true_and,
    and_true]

theorem standAt_values_iff {escrow : Escrow} (hlength : raw.length = schema.width) :
    Field.StandAt raw 0 schema.fields escrow.values ↔ escrow.LaidOut raw := by
  change raw.length = 105 at hlength
  simp (disch := omega) only [schema, values, Field.StandAt, FieldType.width, Nat.zero_add,
    Nat.reduceAdd, decode_address_iff, decode_word64_iff, decode_byte_iff, laidOut_iff, hlength,
    true_and, and_true]

theorem pack_eq_ok_iff {escrow : Escrow} :
    Packed.pack escrow = .ok raw ↔ escrow.LaidOut raw := by
  refine (Packed.pack_eq_ok_iff_writtenAt.trans (and_congr_right writtenAt_values_iff)).trans ?_
  exact and_iff_right_of_imp fun h => h.length

theorem unpack_eq_ok_iff {escrow : Escrow} :
    Packed.unpack raw = .ok escrow ↔ escrow.LaidOut raw := by
  refine (Packed.unpack_eq_ok_iff_standAt.trans (and_congr_right standAt_values_iff)).trans ?_
  exact and_iff_right_of_imp fun h => h.length

end Escrow

/-- Every account is written, each value to its place, and every buffer that is read gives the
account whose values stand in these places. Text is cut or filled up with zeros where it is written
and loses the zeros at its end where it is read. -/
theorem Packed.account_layouts :
    (∀ config : Config, (∃ raw, pack config = .ok raw) ∧
      ∀ raw, pack config = .ok raw ↔
        config.LaidOut raw ∧ bytesAt raw 224 32 = Wire.text 32 config.label) ∧
    (∀ escrow : Escrow, (∃ raw, pack escrow = .ok raw) ∧
      ∀ raw, pack escrow = .ok raw ↔ escrow.LaidOut raw) ∧
    (∀ raw, ∀ config : Config, unpack raw = .ok config ↔
      config.LaidOut raw ∧ Text.utf8 config.label = labelAt raw 224) ∧
    ∀ raw, ∀ escrow : Escrow, unpack raw = .ok escrow ↔ escrow.LaidOut raw := by
  refine ⟨fun config => ⟨?_, fun raw => Config.pack_eq_ok_iff⟩,
    fun escrow => ⟨?_, fun raw => Escrow.pack_eq_ok_iff⟩,
    fun raw config => Config.unpack_eq_ok_iff, fun raw escrow => Escrow.unpack_eq_ok_iff⟩
  · obtain ⟨raw, hpack, -⟩ := exists_pack config
    exact ⟨raw, hpack⟩
  · obtain ⟨raw, hpack, -⟩ := exists_pack escrow
    exact ⟨raw, hpack⟩

/-- The last 63 bytes of a config that is paused, from its label on. -/
theorem Packed.account_layouts_paused :
    pack { (default : Config) with
        label := "é", fee := 258, updatedAt := 7, isAuthorized := true, status := .paused,
        bump := 255 } =
      .ok (Bytes.zeros 224 ++ 195 :: 169 :: Bytes.zeros 30 ++ 2 :: 1 :: Bytes.zeros 22 ++
        [7, 0, 0, 0, 1, 3, 255]) := by
  refine ((account_layouts.1 _).2 _).mpr ⟨?_, by decide +kernel⟩
  constructor <;> decide +kernel

end VaultWire
