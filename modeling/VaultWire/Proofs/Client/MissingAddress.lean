import VaultWire.Client.Submission
import VaultWire.Proofs.Address.BumpSearch
import VaultWire.Proofs.Command.RoundTrip

/-!
# Requests that lack an address

The seeds of derived accounts are few and short enough, and the commands of submissions can all be
packed. So a request can lack nothing but an address, where no bump is left for one of its accounts.
-/

namespace VaultWire

theorem Purpose.check_seeds (purpose : Purpose) : Seeds.check purpose.seeds = .ok () := by
  cases purpose <;>
    simp [Seeds.check, Seeds.checkLengths, Seeds.maxCount, Seeds.maxLength, seeds, configSeed,
      vaultSeed, escrowSeed, Address.length_bytes]

/-- Seeds of derived accounts are within the limits, so only a bump can be missing. -/
theorem Purpose.failsOnlyWith_address (purpose : Purpose) :
    FailsOnlyWith .noValidAddress purpose.address := by
  refine FailsOnlyWith.map ?_ _
  intro cause h
  rcases Scheme.find_eq_error_iff.mp h with hcheck | ⟨-, -, hcause⟩
  · rw [purpose.check_seeds] at hcheck
    cases hcheck
  · exact hcause

theorem Deployment.failsOnlyWith_configAddress (deployment : Deployment) :
    FailsOnlyWith .noValidAddress deployment.configAddress :=
  (Purpose.config deployment.program).failsOnlyWith_address

theorem Deployment.failsOnlyWith_settlement (deployment : Deployment)
    (maker mintX mintY tokenProgram : Address) (id : UInt64) :
    FailsOnlyWith .noValidAddress
      (deployment.settlement maker mintX mintY tokenProgram id) := by
  refine (Purpose.failsOnlyWith_address _).bind fun escrow => ?_
  refine (Purpose.failsOnlyWith_address _).bind fun makerTokensX => ?_
  refine (Purpose.failsOnlyWith_address _).bind fun makerTokensY => ?_
  refine (Purpose.failsOnlyWith_address _).bind fun escrowTokensX => ?_
  refine (Purpose.failsOnlyWith_address _).bind fun escrowTokensY => ?_
  refine (Purpose.failsOnlyWith_address _).bind fun config => ?_
  exact failsOnlyWith_ok _ _

/-- With which step every request ends: no command of a submission has decimals to check. -/
theorem Request.failsOnlyWith_ofCommand {program : Address} {command : Command}
    {accounts : List AccountRef} {answer : Option Address} (e : CodecError)
    (h : command.check = .ok ()) :
    FailsOnlyWith e
      (do return Request.mk (← Instruction.ofCommand program command accounts) answer) := by
  obtain ⟨bytes, hbytes⟩ := Command.exists_pack_of_check h
  rw [Instruction.ofCommand, hbytes]
  exact failsOnlyWith_ok _ _

theorem Submission.failsOnlyWith_request (submission : Submission) (deployment : Deployment) :
    FailsOnlyWith .noValidAddress (submission.request deployment) := by
  -- Accounts are derived one after the other, and the command is packed last.
  cases submission with
  | tokenDeposit authority wallet mint tokenProgram decimals amount =>
      refine (Purpose.failsOnlyWith_address _).bind fun source => ?_
      refine (Purpose.failsOnlyWith_address _).bind fun destination => ?_
      exact Request.failsOnlyWith_ofCommand _ rfl
  | tokenWithdraw user mint tokenProgram decimals amount =>
      refine (Purpose.failsOnlyWith_address _).bind fun vault => ?_
      refine (Purpose.failsOnlyWith_address _).bind fun source => ?_
      refine (Purpose.failsOnlyWith_address _).bind fun destination => ?_
      exact Request.failsOnlyWith_ofCommand _ rfl
  | escrowMake maker tokenProgram offer =>
      refine (Purpose.failsOnlyWith_address _).bind fun escrow => ?_
      refine (Purpose.failsOnlyWith_address _).bind fun makerTokensX => ?_
      refine (Purpose.failsOnlyWith_address _).bind fun escrowTokens => ?_
      refine (Purpose.failsOnlyWith_address _).bind fun config => ?_
      exact Request.failsOnlyWith_ofCommand _ rfl
  | escrowWithdraw maker mintX mintY tokenProgram id =>
      refine (deployment.failsOnlyWith_settlement _ _ _ _ _).bind fun settlement => ?_
      exact Request.failsOnlyWith_ofCommand _ rfl
  | escrowCancel maker mintX mintY tokenProgram id =>
      refine (deployment.failsOnlyWith_settlement _ _ _ _ _).bind fun settlement => ?_
      exact Request.failsOnlyWith_ofCommand _ rfl
  | _ =>
      refine (Purpose.failsOnlyWith_address _).bind fun derived => ?_
      exact Request.failsOnlyWith_ofCommand _ rfl

end VaultWire
