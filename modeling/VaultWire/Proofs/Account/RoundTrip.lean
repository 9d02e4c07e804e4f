import VaultWire.Proofs.Accepts
import VaultWire.Proofs.Account.Lookup
import VaultWire.Proofs.Account.Packed
import VaultWire.Proofs.Command.RoundTrip

/-!
# Accounts and their buffers

Configs and escrows are lawful account types. Every account is written to a buffer of the size of
its type, and is read back from it unless it is a config whose label does not fit; and every buffer
that is read is the one written for what was read.
-/

namespace VaultWire

namespace Config

theorem ofRecord_record (config : Config) :
    ofRecord (schema.record config.values) = .ok config :=
  ofRecord_eq_ok_iff.mpr config.toldBy_record

theorem acceptAll_values (config : Config) : Field.AcceptAll schema.fields config.values := by
  simp [schema, values, Quad.toList]

theorem exists_of_acceptAll {vals : List FieldValue} (h : Field.AcceptAll schema.fields vals) :
    ∃ config : Config, config.values = vals := by
  simp only [schema, Field.acceptAll_cons_iff, Field.acceptAll_nil_iff, FieldType.accepts_byte_iff,
    FieldType.accepts_word32_iff, FieldType.accepts_word64_iff, FieldType.accepts_bool_iff,
    FieldType.accepts_address_iff, FieldType.accepts_text_iff, FieldType.accepts_status_iff] at h
  obtain ⟨_, _, rfl, ⟨mint0, rfl⟩, _, _, rfl, ⟨mint1, rfl⟩, _, _, rfl, ⟨mint2, rfl⟩,
    _, _, rfl, ⟨mint3, rfl⟩, _, _, rfl, ⟨authority, rfl⟩, _, _, rfl, ⟨owner, rfl⟩,
    _, _, rfl, ⟨admin, rfl⟩, _, _, rfl, ⟨label, rfl⟩, _, _, rfl, ⟨fee, rfl⟩,
    _, _, rfl, ⟨solBalance, rfl⟩, _, _, rfl, ⟨tokenBalance, rfl⟩, _, _, rfl, ⟨updatedAt, rfl⟩,
    _, _, rfl, ⟨isAuthorized, rfl⟩, _, _, rfl, ⟨status, rfl⟩, _, _, rfl, ⟨bump, rfl⟩, rfl⟩ := h
  exact ⟨{ mints := ⟨mint0, mint1, mint2, mint3⟩, authority, owner, admin, label, fee, solBalance,
           tokenBalance, updatedAt, isAuthorized, status, bump }, rfl⟩

instance : LawfulPacked Config where
  bytesDistinct := by simp [Packed.schema, schema, FieldType.BytesDistinct,
    Status.tabulates.bytesDistinct]
  symbolsDistinct := by simp [Packed.schema, schema, FieldType.SymbolsDistinct,
    Status.tabulates.symbolsDistinct]
  acceptAll_values := acceptAll_values
  ofRecord_record := ofRecord_record
  exists_of_acceptAll _ := exists_of_acceptAll

variable {config : Config} {bytes : Bytes}

/-- The label is the only text of a config. -/
theorem fits_values_iff :
    (∀ pair ∈ schema.fields.zip config.values, pair.1.type.Fits pair.2) ↔
      Text.Fits 32 config.label := by
  simp [schema, values, Quad.toList, FieldType.Fits, Text.labelWidth]

theorem unpack_of_pack_eq_self_iff (h : Packed.pack config = .ok bytes) :
    Packed.unpack bytes = .ok config ↔ Text.Fits 32 config.label :=
  (Packed.unpack_of_pack_eq_self_iff h).trans fits_values_iff

theorem fits_label_of_unpack (h : Packed.unpack bytes = .ok config) : Text.Fits 32 config.label :=
  (unpack_of_pack_eq_self_iff (Packed.pack_of_unpack h)).mp h

end Config

namespace Escrow

theorem ofRecord_record (escrow : Escrow) :
    ofRecord (schema.record escrow.values) = .ok escrow :=
  ofRecord_eq_ok_iff.mpr escrow.toldBy_record

theorem acceptAll_values (escrow : Escrow) : Field.AcceptAll schema.fields escrow.values := by
  simp [schema, values]

theorem exists_of_acceptAll {vals : List FieldValue} (h : Field.AcceptAll schema.fields vals) :
    ∃ escrow : Escrow, escrow.values = vals := by
  simp only [schema, Field.acceptAll_cons_iff, Field.acceptAll_nil_iff, FieldType.accepts_byte_iff,
    FieldType.accepts_word64_iff, FieldType.accepts_address_iff] at h
  obtain ⟨_, _, rfl, ⟨maker, rfl⟩, _, _, rfl, ⟨mintMaker, rfl⟩, _, _, rfl, ⟨mintTaker, rfl⟩,
    _, _, rfl, ⟨amount, rfl⟩, _, _, rfl, ⟨bump, rfl⟩, rfl⟩ := h
  exact ⟨{ maker, mintMaker, mintTaker, amount, bump }, rfl⟩

instance : LawfulPacked Escrow where
  bytesDistinct := by simp [Packed.schema, schema, FieldType.BytesDistinct]
  symbolsDistinct := by simp [Packed.schema, schema, FieldType.SymbolsDistinct]
  acceptAll_values := acceptAll_values
  ofRecord_record := ofRecord_record
  exists_of_acceptAll _ := exists_of_acceptAll

variable {escrow : Escrow} {bytes : Bytes}

/-- No value of an escrow is text. -/
theorem fits_values :
    ∀ pair ∈ schema.fields.zip escrow.values, pair.1.type.Fits pair.2 := by
  simp [schema, values, FieldType.Fits]

theorem unpack_of_pack (h : Packed.pack escrow = .ok bytes) : Packed.unpack bytes = .ok escrow :=
  (Packed.unpack_of_pack_eq_self_iff h).mpr fits_values

end Escrow

namespace Command

theorem fits_label_of_unpack {bytes : Bytes} {command : Command} {label : String}
    (h : unpack bytes = .ok command) (hlabel : command.label? = some label) :
    Text.Fits 32 label :=
  (unpack_of_pack_eq_self_iff (pack_of_unpack h)).mp h label hlabel

end Command

namespace Packed

/-- A label that was read from a config or from the payload of a command. -/
def LabelRead (label : String) : Prop :=
  (∃ bytes, ∃ config : Config, unpack bytes = .ok config ∧ config.label = label) ∨
    ∃ bytes command, Command.unpack bytes = .ok command ∧ command.label? = some label

theorem LabelRead.fits {label : String} (h : LabelRead label) : Text.Fits 32 label := by
  rcases h with ⟨bytes, config, hunpack, rfl⟩ | ⟨bytes, command, hunpack, hlabel⟩
  · exact Config.fits_label_of_unpack hunpack
  · exact Command.fits_label_of_unpack hunpack hlabel

/-- Accounts and buffers of their size determine each other, up to a label that does not fit; and a
label that was read fits any config. -/
theorem unpack_pack_account :
    (∀ config : Config, ∃ bytes, pack config = .ok bytes ∧ bytes.length = 287 ∧
      (unpack bytes = .ok config ↔ Text.Fits 32 config.label)) ∧
    (∀ escrow : Escrow, ∃ bytes, pack escrow = .ok bytes ∧ bytes.length = 105 ∧
      unpack bytes = .ok escrow) ∧
    (∀ bytes, ∀ config : Config, unpack bytes = .ok config → pack config = .ok bytes) ∧
    (∀ bytes, ∀ escrow : Escrow, unpack bytes = .ok escrow → pack escrow = .ok bytes) ∧
    ∀ label, LabelRead label → ∀ config : Config,
      pack { config with label } >>= unpack = .ok { config with label } := by
  refine ⟨?_, ?_, fun _ _ => pack_of_unpack, fun _ _ => pack_of_unpack, ?_⟩
  · intro config
    obtain ⟨bytes, hpack, hlength⟩ := exists_pack config
    exact ⟨bytes, hpack, hlength, Config.unpack_of_pack_eq_self_iff hpack⟩
  · intro escrow
    obtain ⟨bytes, hpack, hlength⟩ := exists_pack escrow
    exact ⟨bytes, hpack, hlength, Escrow.unpack_of_pack hpack⟩
  · intro label hlabel config
    obtain ⟨bytes, hpack, -⟩ := exists_pack { config with label }
    have hunpack := (Config.unpack_of_pack_eq_self_iff hpack).mpr hlabel.fits
    exact bind_eq_ok_iff.mpr ⟨bytes, hpack, hunpack⟩

/-- Zeros are the config and the escrow of zeros, and a label from a payload is stored. -/
theorem unpack_pack_account_label :
    pack (default : Config) = .ok (Bytes.zeros 287) ∧
      pack (default : Escrow) = .ok (Bytes.zeros 105) ∧
      pack { (default : Config) with label := "ab" } >>= unpack =
        .ok { (default : Config) with label := "ab" } := by
  obtain ⟨-, -, hconfig, hescrow, hlabel⟩ := unpack_pack_account
  refine ⟨hconfig _ _ (by decide +kernel), hescrow _ _ (by decide +kernel), hlabel "ab" ?_ default⟩
  exact .inr ⟨[12, 1, 1, 5, 0, 0, 0, 0, 0, 0, 0, 97, 98] ++ Bytes.zeros 30,
    .initConfig true .active 5 "ab", rfl, rfl⟩

end Packed

end VaultWire
