import VaultWire.Client.Memory
import VaultWire.Proofs.Account.RoundTrip
import VaultWire.Proofs.Client.Outcome

/-!
# Typed reads

A buffer is read as an account of a known type, or as a record with the layout of that type, and a
client fetches either. To read an account is to read the record and to look the account up in it; the
look-up adds no failures of its own, whatever the buffer holds and whatever becomes of the ledger.
-/

namespace VaultWire

namespace Packed

variable {α : Type} [Packed α]

/-- Whether a buffer is read as an account exactly as it is read as a record with the layout of the
accounts: with the same refusals, and with an account of which `told` holds. -/
structure ReadsAlike (told : α → Record → Prop) (raw : Bytes) : Prop where
  ok_iff : (∃ account : α, unpack raw = .ok account) ↔ ∃ record, (schema α).decode raw = .ok record
  error_iff : ∀ cause, (unpack raw : Except CodecError α) = .error cause ↔
    (schema α).decode raw = .error cause
  told : ∀ record, (schema α).decode raw = .ok record →
    ∃ account : α, ofRecord record = .ok account ∧ unpack raw = .ok account ∧ told account record

theorem exists_ofRecord_of_decode [LawfulPacked α] {raw : Bytes} {record : Record}
    (h : (schema α).decode raw = .ok record) : ∃ account : α, ofRecord record = .ok account := by
  obtain ⟨account, rfl⟩ := exists_of_decode (α := α) h
  exact ⟨account, LawfulPacked.ofRecord_record account⟩

theorem readsAlike [LawfulPacked α] {told : α → Record → Prop}
    (htold : ∀ account record, ofRecord record = .ok account → told account record)
    (raw : Bytes) : ReadsAlike told raw := by
  refine ⟨exists_unpack_iff, fun _ => unpack_eq_error_iff, ?_⟩
  intro record hrecord
  obtain ⟨account, haccount⟩ := exists_ofRecord_of_decode (α := α) hrecord
  exact ⟨account, haccount, bind_eq_ok_iff.mpr ⟨record, hrecord, haccount⟩,
    htold account record haccount⟩

end Packed

theorem Config.readsAlike (raw : Bytes) : Packed.ReadsAlike Config.ToldBy raw :=
  Packed.readsAlike (fun _ _ => ofRecord_eq_ok_iff.mp) raw

theorem Escrow.readsAlike (raw : Bytes) : Packed.ReadsAlike Escrow.ToldBy raw :=
  Packed.readsAlike (fun _ _ => ofRecord_eq_ok_iff.mp) raw

namespace Client

variable {σ ε α : Type} [Packed α]

/-- Whether accounts are fetched from an address, which may fail to exist, as records are: with the
layout of the accounts and with a look-up that fails for no record that was fetched. -/
structure FetchesAlike (client : Client σ ε) (address : Except CodecError Address)
    (fetch : σ → Outcome σ ε α) : Prop where
  record : ∀ found state, address = .ok found →
    fetch state = (client.fetchRecord found (Packed.schema α) state).andThen Packed.ofRecord
  error_iff : ∀ found state failure, address = .ok found →
    ((fetch state).result = .error failure ↔
      (client.fetchRecord found (Packed.schema α) state).result = .error failure)
  noAddress : ∀ cause state, address = .error cause →
    fetch state = .ofResult (.error (.codec cause)) state

theorem andThen_ofRecord_fetchRecord (client : Client σ ε) (address : Address) (state : σ) :
    (client.fetchRecord address (Packed.schema α) state).andThen Packed.ofRecord =
      (client.fetch address state).andThen (Packed.unpack : Bytes → Except CodecError α) := by
  rw [fetchRecord, Outcome.andThen_andThen]
  rfl

theorem result_andThen_unpack_eq_error_iff [LawfulPacked α] {outcome : Outcome σ ε Bytes}
    {failure : ClientError ε} :
    (outcome.andThen (Packed.unpack : Bytes → Except CodecError α)).result = .error failure ↔
      (outcome.andThen (Packed.schema α).decode).result = .error failure := by
  simp only [Outcome.result_andThen_eq_error_iff, Packed.unpack_eq_error_iff]

theorem fetchesAlike [LawfulPacked α] (client : Client σ ε) (address : Except CodecError Address) :
    client.FetchesAlike address fun state =>
      (client.fetchAt address state).andThen (Packed.unpack : Bytes → Except CodecError α) where
  record := by
    rintro found state rfl
    exact (client.andThen_ofRecord_fetchRecord found state).symm
  error_iff := by
    rintro found state failure rfl
    exact result_andThen_unpack_eq_error_iff
  noAddress := by
    rintro cause state rfl
    rfl

/-- A buffer is read as a config, or as an escrow, exactly as it is read as a record with the same
layout, and the fields are what the look-ups of their names find. So is what a client fetches, with
all failures of the ledger, of the address and of the codec. -/
theorem typed_reads_alike :
    (∀ raw, Packed.ReadsAlike Config.ToldBy raw) ∧ (∀ raw, Packed.ReadsAlike Escrow.ToldBy raw) ∧
    ∀ (σ ε : Type) (client : Client σ ε),
      client.FetchesAlike client.deployment.configAddress client.fetchConfig ∧
      ∀ maker id, client.FetchesAlike (client.deployment.escrowAddress maker id)
        (client.fetchEscrow maker id) := by
  refine ⟨Config.readsAlike, Escrow.readsAlike, ?_⟩
  intro σ ε client
  exact ⟨client.fetchesAlike _, fun maker id => client.fetchesAlike _⟩

/-- A client of a ledger on which every account holds these bytes. -/
def holding (bytes : Bytes) : Client Unit Unit where
  ledger :=
    { submit := fun _ state => (.ok (), state)
      fetch := fun _ _ => .ok (some bytes)
      clock := fun _ => .ok 0 }
  deployment := .standard

theorem result_fetchRecord_holding {bytes : Bytes} {schema : Schema} {record : Record}
    (address : Address) (h : schema.decode bytes = .ok record) :
    ((holding bytes).fetchRecord address schema ()).result = .ok record := by
  have hfetch : ((holding bytes).fetch address ()).result = .ok bytes := rfl
  rw [fetchRecord, Outcome.result_andThen_of_ok hfetch, h]
  rfl

/-- Zeros are fetched as the escrow of zeros where they are fetched as a record that tells of it, and
a buffer that is too short is refused. -/
theorem typed_reads_alike_zeros :
    ∃ address record, Deployment.standard.escrowAddress .zero 0 = .ok address ∧
      ((holding (Bytes.zeros 105)).fetchRecord address Escrow.schema ()).result = .ok record ∧
      (default : Escrow).ToldBy record ∧
      ((holding (Bytes.zeros 105)).fetchEscrow .zero 0 ()).result = .ok default ∧
      ((holding []).fetchEscrow .zero 0 ()).result = .error (.codec (.schemaLength 105 0)) := by
  obtain ⟨-, hescrow, hclient⟩ := typed_reads_alike
  have hsome : (Deployment.standard.escrowAddress .zero 0).toOption.isSome = true := by
    decide +kernel
  cases haddress : Deployment.standard.escrowAddress .zero 0 with
  | error cause =>
      rw [haddress] at hsome
      cases hsome
  | ok address =>
      have hzeros : Packed.unpack (Bytes.zeros 105) = .ok (default : Escrow) := by rfl
      obtain ⟨record, hrecord⟩ := (hescrow (Bytes.zeros 105)).ok_iff.mp ⟨default, hzeros⟩
      obtain ⟨escrow, hfound, hunpack, htold⟩ := (hescrow (Bytes.zeros 105)).told record hrecord
      obtain rfl := Except.ok.inj (hunpack.symm.trans hzeros)
      have hfetched := result_fetchRecord_holding address hrecord
      refine ⟨address, record, rfl, hfetched, htold, ?_, ?_⟩
      · have halike := (hclient Unit Unit (holding (Bytes.zeros 105))).2 .zero 0
        rw [halike.record address () haddress, Outcome.result_andThen_of_ok hfetched, hfound]
        rfl
      · have halike := (hclient Unit Unit (holding [])).2 .zero 0
        rw [halike.error_iff address () _ haddress]
        rfl

end Client

end VaultWire
