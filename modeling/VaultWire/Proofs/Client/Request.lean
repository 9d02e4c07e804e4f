import VaultWire.Client.Submission
import VaultWire.Proofs.Except

/-!
# From submissions to requests

What is known of a submission once it has been stamped with a time and turned into a request.
-/

namespace VaultWire

/-- What is sent is the submission itself, or an update with the time that it came without. -/
theorem Submission.stamp_cases {ε : Type} {clock : Except ε UInt32}
    {submission stamped : Submission} (h : submission.stamp clock = .ok stamped) :
    stamped = submission ∨
      ∃ authority extra₀ extra₁ update time, update.timestamp = 0 ∧ clock = .ok time ∧
        submission = .updateConfig authority extra₀ extra₁ update ∧
        stamped = .updateConfig authority extra₀ extra₁ (update.withTimestamp time) := by
  cases submission
  case updateConfig authority extra₀ extra₁ update =>
    rw [stamp] at h
    by_cases htime : update.timestamp = 0
    · rw [if_pos htime] at h
      obtain ⟨time, hclock, hstamped⟩ := bind_eq_ok_iff.mp h
      cases hstamped
      exact .inr ⟨authority, extra₀, extra₁, update, time, htime, hclock, rfl, rfl⟩
    · rw [if_neg htime] at h
      cases h
      exact .inl rfl
  all_goals cases h; exact .inl rfl

/-- The accounts of an escrow that is ended: the maker, and five that are derived. -/
structure Deployment.Settles (deployment : Deployment) (maker mintX mintY tokenProgram : Address)
    (id : UInt64) (settlement : Instruction.EscrowSettlement) : Prop where
  escrow : deployment.escrowAddress maker id = .ok settlement.escrow
  makerTokensX :
    (Purpose.associatedToken maker mintX tokenProgram).address = .ok settlement.makerTokensX
  makerTokensY :
    (Purpose.associatedToken maker mintY tokenProgram).address = .ok settlement.makerTokensY
  escrowTokensX : (Purpose.associatedToken settlement.escrow mintX tokenProgram).address =
    .ok settlement.escrowTokensX
  escrowTokensY : (Purpose.associatedToken settlement.escrow mintY tokenProgram).address =
    .ok settlement.escrowTokensY
  config : deployment.configAddress = .ok settlement.config
  maker : settlement.maker = maker

theorem Deployment.settles_of_settlement {deployment : Deployment}
    {maker mintX mintY tokenProgram : Address} {id : UInt64}
    {settlement : Instruction.EscrowSettlement}
    (h : deployment.settlement maker mintX mintY tokenProgram id = .ok settlement) :
    deployment.Settles maker mintX mintY tokenProgram id settlement := by
  obtain ⟨escrow, hescrow, h⟩ := bind_eq_ok_iff.mp h
  obtain ⟨makerX, hmakerX, h⟩ := bind_eq_ok_iff.mp h
  obtain ⟨makerY, hmakerY, h⟩ := bind_eq_ok_iff.mp h
  obtain ⟨escrowX, hescrowX, h⟩ := bind_eq_ok_iff.mp h
  obtain ⟨escrowY, hescrowY, h⟩ := bind_eq_ok_iff.mp h
  obtain ⟨config, hconfig, h⟩ := bind_eq_ok_iff.mp h
  cases h
  exact ⟨hescrow, hmakerX, hmakerY, hescrowX, hescrowY, hconfig, rfl⟩

theorem Instruction.ofCommand_eq_ok_iff {program : Address} {command : Command}
    {accounts : List AccountRef} {instruction : Instruction} :
    ofCommand program command accounts = .ok instruction ↔
      ∃ data, command.pack = .ok data ∧ instruction = ⟨program, accounts, data⟩ := by
  rw [ofCommand, bind_eq_ok_iff]
  constructor
  · rintro ⟨data, hdata, h⟩
    exact ⟨data, hdata, (Except.ok.inj h).symm⟩
  · rintro ⟨data, hdata, rfl⟩
    exact ⟨data, hdata, rfl⟩

/-- With which step every request ends: the command is packed, and nothing else can fail. -/
theorem Request.exists_data_of_ofCommand {program : Address} {command : Command}
    {accounts : List AccountRef} {answer : Option Address} {request : Request}
    (h : (do return Request.mk (← Instruction.ofCommand program command accounts) answer) =
      .ok request) :
    ∃ data, command.pack = .ok data ∧ request = ⟨⟨program, accounts, data⟩, answer⟩ := by
  obtain ⟨instruction, hinstruction, hrequest⟩ := bind_eq_ok_iff.mp h
  obtain ⟨data, hdata, rfl⟩ := Instruction.ofCommand_eq_ok_iff.mp hinstruction
  exact ⟨data, hdata, (Except.ok.inj hrequest).symm⟩

end VaultWire
