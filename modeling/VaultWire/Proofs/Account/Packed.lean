import VaultWire.Account.Packed
import VaultWire.Proofs.Schema.RoundTrip

/-!
# Lawful account types

An account type is lawful if its values are exactly those that its layout accepts and its reader
finds them again by name. For such a type, reading a buffer is reading a record with the layout:
both succeed on the same buffers and give the same refusals.
-/

namespace VaultWire

/-- The laws by which values listed by position and values looked up by name agree. -/
class LawfulPacked (α : Type) [Packed α] : Prop where
  bytesDistinct : ∀ field ∈ (Packed.schema α).fields, field.type.BytesDistinct
  symbolsDistinct : ∀ field ∈ (Packed.schema α).fields, field.type.SymbolsDistinct
  acceptAll_values : ∀ account : α,
    Field.AcceptAll (Packed.schema α).fields (Packed.values account)
  ofRecord_record : ∀ account : α,
    Packed.ofRecord ((Packed.schema α).record (Packed.values account)) = .ok account
  exists_of_acceptAll : ∀ values, Field.AcceptAll (Packed.schema α).fields values →
    ∃ account : α, Packed.values account = values

namespace Packed

variable {α : Type} [Packed α] [LawfulPacked α] {account : α} {raw bytes : Bytes}

theorem exists_of_decode {record : Record} (h : (schema α).decode raw = .ok record) :
    ∃ account : α, record = (schema α).record (values account) := by
  obtain ⟨vals, hvals, rfl⟩ := Schema.exists_values_of_decode h
  obtain ⟨account, rfl⟩ := LawfulPacked.exists_of_acceptAll vals hvals
  exact ⟨account, rfl⟩

theorem unpack_of_decode (h : (schema α).decode raw = .ok ((schema α).record (values account))) :
    unpack raw = .ok account := by
  rw [unpack, h]
  exact LawfulPacked.ofRecord_record account

theorem unpack_eq_ok_iff :
    unpack raw = .ok account ↔
      (schema α).decode raw = .ok ((schema α).record (values account)) := by
  refine ⟨fun h => ?_, unpack_of_decode⟩
  obtain ⟨record, hrecord, _⟩ := bind_eq_ok_iff.mp h
  obtain ⟨other, rfl⟩ := exists_of_decode (α := α) hrecord
  rw [unpack_of_decode hrecord] at h
  obtain rfl := Except.ok.inj h
  exact hrecord

/-- No refusal of a buffer comes from the look-ups by name. -/
theorem unpack_eq_error_iff {cause : CodecError} :
    (unpack raw : Except CodecError α) = .error cause ↔ (schema α).decode raw = .error cause := by
  cases hread : (schema α).decode raw with
  | error other =>
      rw [unpack, hread]
      change Except.error other = _ ↔ _
      rw [Except.error.injEq, Except.error.injEq]
  | ok record =>
      obtain ⟨account, rfl⟩ := exists_of_decode (α := α) hread
      rw [unpack_of_decode hread]
      exact iff_of_false nofun nofun

theorem exists_unpack_iff :
    (∃ account : α, unpack raw = .ok account) ↔ ∃ record, (schema α).decode raw = .ok record := by
  constructor
  · rintro ⟨account, h⟩
    exact ⟨_, unpack_eq_ok_iff.mp h⟩
  · rintro ⟨record, h⟩
    obtain ⟨account, rfl⟩ := exists_of_decode (α := α) h
    exact ⟨account, unpack_of_decode h⟩

theorem exists_pack (account : α) :
    ∃ bytes, pack account = .ok bytes ∧ bytes.length = (schema α).width := by
  obtain ⟨bytes, hbytes⟩ :=
    Schema.exists_encode_of_acceptAll (LawfulPacked.acceptAll_values account)
  exact ⟨bytes, hbytes, Schema.length_of_encode hbytes⟩

theorem pack_of_unpack (h : unpack raw = .ok account) : pack account = .ok raw := by
  have hencode := Schema.encode_of_decode LawfulPacked.symbolsDistinct (unpack_eq_ok_iff.mp h)
  rwa [Schema.values_record (LawfulPacked.acceptAll_values account).length_eq.symm] at hencode

theorem unpack_of_pack_eq_self_iff (h : pack account = .ok bytes) :
    unpack bytes = .ok account ↔
      ∀ pair ∈ (schema α).fields.zip (values account), pair.1.type.Fits pair.2 :=
  unpack_eq_ok_iff.trans (Schema.decode_of_encode_eq_record_iff LawfulPacked.bytesDistinct h)

end Packed

end VaultWire
