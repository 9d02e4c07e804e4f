import VaultWire.Proofs.Account.RoundTrip
import VaultWire.Proofs.Schema.Rejection

/-!
# Accounts written over a buffer

Whatever values the accounts of a type are turned into, what is packed fills the layout. So an
account that is written over a buffer replaces all of it, and one that cannot be packed, or meets a
buffer of another length, leaves it as it was. Configs and escrows can always be packed.
-/

namespace VaultWire

theorem Bytes.overwrite_of_length_eq {dst src : Bytes} (h : src.length = dst.length) :
    Bytes.overwrite dst src = src := by
  rw [overwrite, List.take_of_length_le h.le, List.drop_eq_nil_of_le h.ge, List.append_nil]

/-- Values have no length that could be wrong. -/
theorem Schema.encode_ne_schemaLength (schema : Schema) (values : List FieldValue)
    (expected actual : Nat) : schema.encode values ≠ .error (.schemaLength expected actual) := by
  intro h
  rcases encode_eq_error_iff.mp h with ⟨-, ⟨⟩⟩ | ⟨-, k, field, value, -, -, -, hreject⟩
  cases hreject

namespace Packed

variable {α : Type} [Packed α] {account : α} {dst bytes : Bytes} {cause : CodecError}

theorem length_of_pack (h : pack account = .ok bytes) : bytes.length = (schema α).width :=
  Schema.length_of_encode h

theorem packInto_of_length_ne (h : dst.length ≠ (schema α).width) :
    packInto account dst = (.error (.schemaLength (schema α).width dst.length), dst) :=
  if_neg h

theorem packInto_of_pack_eq_error (hlength : dst.length = (schema α).width)
    (h : pack account = .error cause) : packInto account dst = (.error cause, dst) := by
  rw [packInto, if_pos hlength, h]

/-- The packed bytes are as many as the buffer has places, so all of the buffer is replaced. -/
theorem packInto_of_pack_eq_ok (hlength : dst.length = (schema α).width)
    (h : pack account = .ok bytes) : packInto account dst = (.ok (), bytes) := by
  have hfill : bytes.length = dst.length := (length_of_pack h).trans hlength.symm
  rw [packInto, if_pos hlength, h]
  dsimp only
  rw [Bytes.overwrite_of_length_eq hfill]

/-- The three ways in which writing over a buffer can end. -/
theorem packInto_cases (account : α) (dst : Bytes) :
    (dst.length ≠ (schema α).width ∧
      packInto account dst = (.error (.schemaLength (schema α).width dst.length), dst)) ∨
    (dst.length = (schema α).width ∧ ∃ cause, pack account = .error cause ∧
      packInto account dst = (.error cause, dst)) ∨
    dst.length = (schema α).width ∧ ∃ bytes, pack account = .ok bytes ∧
      packInto account dst = (.ok (), bytes) := by
  by_cases hlength : dst.length = (schema α).width
  · cases hpack : pack account with
    | error cause =>
        exact .inr (.inl ⟨hlength, cause, rfl, packInto_of_pack_eq_error hlength hpack⟩)
    | ok bytes => exact .inr (.inr ⟨hlength, bytes, rfl, packInto_of_pack_eq_ok hlength hpack⟩)
  · exact .inl ⟨hlength, packInto_of_length_ne hlength⟩

theorem packInto_eq_ok_iff :
    (packInto account dst).1 = .ok () ↔
      dst.length = (schema α).width ∧ ∃ bytes, pack account = .ok bytes := by
  rcases packInto_cases account dst with
    ⟨hlength, hinto⟩ | ⟨-, cause, hpack, hinto⟩ | ⟨hlength, bytes, hpack, hinto⟩
  · rw [hinto]
    exact iff_of_false nofun fun h => hlength h.1
  · rw [hinto, hpack]
    exact iff_of_false nofun nofun
  · rw [hinto]
    exact iff_of_true rfl ⟨hlength, bytes, hpack⟩

theorem pack_of_packInto (h : (packInto account dst).1 = .ok ()) :
    pack account = .ok (packInto account dst).2 := by
  obtain ⟨hlength, bytes, hpack⟩ := packInto_eq_ok_iff.mp h
  rw [packInto_of_pack_eq_ok hlength hpack, hpack]

theorem packInto_eq_error_iff (hlength : dst.length = (schema α).width) :
    (packInto account dst).1 = .error cause ↔ pack account = .error cause := by
  cases hpack : pack account with
  | error other =>
      rw [packInto_of_pack_eq_error hlength hpack, Except.error.injEq, Except.error.injEq]
  | ok bytes =>
      rw [packInto_of_pack_eq_ok hlength hpack]
      exact iff_of_false nofun nofun

theorem packInto_eq_schemaLength_iff {expected actual : Nat} :
    (packInto account dst).1 = .error (.schemaLength expected actual) ↔
      dst.length ≠ (schema α).width ∧ expected = (schema α).width ∧ actual = dst.length := by
  by_cases hlength : dst.length = (schema α).width
  · rw [packInto_eq_error_iff hlength]
    exact iff_of_false (Schema.encode_ne_schemaLength _ _ _ _) fun h => h.1 hlength
  · rw [packInto_of_length_ne hlength, and_iff_right hlength, Except.error.injEq,
      CodecError.schemaLength.injEq, eq_comm, @eq_comm _ actual]

theorem unchanged_of_packInto_error (h : (packInto account dst).1 = .error cause) :
    (packInto account dst).2 = dst := by
  rcases packInto_cases account dst with ⟨-, hinto⟩ | ⟨-, _, -, hinto⟩ | ⟨-, _, -, hinto⟩
  · rw [hinto]
  · rw [hinto]
  · rw [hinto] at h
    cases h

/-- Accounts of a lawful type are refused by no buffer of the right length. -/
theorem length_ne_of_packInto_error [LawfulPacked α]
    (h : (packInto account dst).1 = .error cause) :
    dst.length ≠ (schema α).width ∧ cause = .schemaLength (schema α).width dst.length := by
  obtain ⟨bytes, hpack, -⟩ := exists_pack account
  have hlength : dst.length ≠ (schema α).width := by
    intro hlength
    rw [packInto_of_pack_eq_ok hlength hpack] at h
    cases h
  rw [packInto_of_length_ne hlength] at h
  exact ⟨hlength, (Except.error.inj h).symm⟩

/-- Writing over a buffer succeeds exactly if the buffer has the length of the layout and the account
can be packed. The buffer then holds the packed account, whatever was in it before, and otherwise
what it held before. A wrong length is reported as such and comes before all other errors, which are
those of packing; configs and escrows have no others. -/
theorem packInto_outcome :
    (∀ (α : Type) [Packed α] (account : α) (dst : Bytes),
      ((packInto account dst).1 = .ok () ↔
        dst.length = (schema α).width ∧ ∃ bytes, pack account = .ok bytes) ∧
      ((packInto account dst).1 = .ok () → pack account = .ok (packInto account dst).2) ∧
      (∀ expected actual, (packInto account dst).1 = .error (.schemaLength expected actual) ↔
        dst.length ≠ (schema α).width ∧ expected = (schema α).width ∧ actual = dst.length) ∧
      (dst.length = (schema α).width → ∀ cause,
        (packInto account dst).1 = .error cause ↔ pack account = .error cause) ∧
      (∀ cause, (packInto account dst).1 = .error cause → (packInto account dst).2 = dst) ∧
      ∀ bytes, dst.length = (schema α).width → pack account = .ok bytes →
        bytes.length = dst.length) ∧
    (∀ config : Config, ∀ dst cause, (packInto config dst).1 = .error cause →
      dst.length ≠ 287 ∧ cause = .schemaLength 287 dst.length) ∧
    ∀ escrow : Escrow, ∀ dst cause, (packInto escrow dst).1 = .error cause →
      dst.length ≠ 105 ∧ cause = .schemaLength 105 dst.length := by
  refine ⟨?_, fun config dst cause => length_ne_of_packInto_error,
    fun escrow dst cause => length_ne_of_packInto_error⟩
  intro α _ account dst
  refine ⟨packInto_eq_ok_iff, pack_of_packInto, ?_, ?_, ?_, ?_⟩
  · intro expected actual
    exact packInto_eq_schemaLength_iff
  · intro hlength cause
    exact packInto_eq_error_iff hlength
  · intro cause h
    exact unchanged_of_packInto_error h
  · intro bytes hlength hpack
    exact (length_of_pack hpack).trans hlength.symm

/-- Numbers of any size as accounts of one byte, which not all of them fit. -/
@[reducible] def byteCounter : Packed Nat where
  schema := ⟨"counter", [⟨"count", .uint 1⟩]⟩
  ofRecord record := record.uint "count"
  values count := [.uint count]

/-- An escrow replaces all bytes of a buffer of its length, a config none of a shorter one, and a
count that is too large for its byte leaves the byte as it was. -/
theorem packInto_outcome_counter :
    packInto (default : Escrow) (List.replicate 105 255) = (.ok (), Bytes.zeros 105) ∧
      packInto (default : Config) (List.replicate 286 255) =
        (.error (.schemaLength 287 286), List.replicate 286 255) ∧
      (packInto (default : Escrow) []).1 = .error (.schemaLength 105 0) ∧
      @packInto Nat byteCounter 300 [7] =
        (.error (.field "count" 0 (.overflow "300" 1)), [7]) := by
  obtain ⟨hall, hconfig, hescrow⟩ := packInto_outcome
  refine ⟨?_, ?_, ?_, ?_⟩
  · have hpack : pack (default : Escrow) = .ok (Bytes.zeros 105) := by rfl
    obtain ⟨hok, hkept, -⟩ := hall Escrow default (List.replicate 105 255)
    have hresult := hok.mpr ⟨by decide, Bytes.zeros 105, hpack⟩
    have hbuffer := (hkept hresult).symm.trans hpack
    exact Prod.ext hresult (Except.ok.inj hbuffer)
  · obtain ⟨hok, -, -, -, hunchanged, -⟩ := hall Config default (List.replicate 286 255)
    cases hresult : (packInto (default : Config) (List.replicate 286 255)).1 with
    | ok =>
        have hlength := (hok.mp hresult).1
        rw [List.length_replicate] at hlength
        cases hlength
    | error cause =>
        obtain ⟨-, rfl⟩ := hconfig default _ cause hresult
        rw [List.length_replicate] at hresult
        exact Prod.ext hresult (hunchanged _ hresult)
  · cases hresult : (packInto (default : Escrow) []).1 with
    | ok => cases hresult
    | error cause => rw [(hescrow default [] cause hresult).2, List.length_nil]
  · obtain ⟨-, -, -, herror, hunchanged, -⟩ := @hall Nat byteCounter 300 [7]
    have hresult := (herror rfl (.field "count" 0 (.overflow "300" 1))).mpr rfl
    exact Prod.ext hresult (hunchanged _ hresult)

end Packed

end VaultWire
