import VaultWire.Client.Memory
import VaultWire.Proofs.Client.Recording
import VaultWire.Proofs.Client.Request
import VaultWire.Proofs.Command.RoundTrip

/-!
# The command of a submission

What a submission has the ledger carry out: one instruction of the vault program, which the caller
alone signs, with the caller's own arguments. Only the time of an update that comes without one is
the ledger's, and for nothing else does the clock matter.
-/

namespace VaultWire

namespace Submission

/-- The command that the caller asks for. -/
def command : Submission → Command
  | deposit _ amount => .deposit amount
  | withdraw _ amount => .withdraw amount
  | tokenDeposit _ _ _ _ decimals amount => .tokenDeposit decimals amount
  | tokenWithdraw _ _ _ decimals amount => .tokenWithdraw decimals amount
  | initConfig _ settings =>
    .initConfig settings.isAuthorized settings.status settings.fee settings.label
  | updateConfig _ _ _ update => .updateConfig update
  | closeConfig .. => .closeConfig
  | configResize _ _ newSize => .configResize newSize
  | escrowMake _ _ offer =>
    .escrowMake offer.decimalsX offer.amountX offer.decimalsY offer.amountY offer.id
  | escrowWithdraw _ _ _ _ id => .escrowWithdraw id
  | escrowCancel .. => .escrowCancel

def caller : Submission → Address
  | deposit owner _ | withdraw owner _ => owner
  | tokenDeposit authority .. => authority
  | tokenWithdraw user .. => user
  | initConfig authority _ | updateConfig authority .. | closeConfig authority _
  | configResize authority .. => authority
  | escrowMake maker .. | escrowWithdraw maker .. | escrowCancel maker .. => maker

/-- Whether the first word of an update, its time, is zero. -/
def LacksTime : Submission → Prop
  | updateConfig _ _ _ update => update.words.first = 0
  | _ => False

/-- Whether the submission is carried out as the command: as the caller's, or as an update with the
time of the ledger in the place of a zero. -/
def Carries {ε : Type} (clock : Except ε UInt32) : Submission → Command → Prop
  | updateConfig _ _ _ update, carried =>
    if update.words.first = 0 then
      ∃ time, clock = .ok time ∧
        carried = .updateConfig { update with words := { update.words with first := time } }
    else carried = .updateConfig update
  | submission, carried => carried = submission.command

end Submission

@[simp] theorem AccountRef.isSigner_writable (address : Address) :
    (AccountRef.writable address).isSigner = false := rfl

@[simp] theorem AccountRef.isSigner_readonly (address : Address) :
    (AccountRef.readonly address).isSigner = false := rfl

namespace Instruction

/-- Whether the caller is the only account that signs, and is the first one and writable. -/
def SignedBy (instruction : Instruction) (caller : Address) : Prop :=
  ∃ others, instruction.accounts = ⟨caller, true, true⟩ :: others ∧
    ∀ account ∈ others, account.isSigner = false

theorem TokenTransfer.signedBy (transfer : TokenTransfer) (deployment : Deployment)
    (data : Bytes) :
    SignedBy ⟨deployment.program, transfer.accounts deployment, data⟩ transfer.authority :=
  ⟨_, rfl, by simp⟩

theorem EscrowSettlement.signedBy (settlement : EscrowSettlement) (deployment : Deployment)
    (data : Bytes) :
    SignedBy ⟨deployment.program, settlement.accounts deployment, data⟩ settlement.maker :=
  ⟨_, rfl, by simp⟩

end Instruction

namespace Submission

variable {ε : Type} {clock : Except ε UInt32} {deployment : Deployment}
  {submission stamped : Submission} {request : Request}

theorem carries_of_stamp (h : submission.stamp clock = .ok stamped) :
    submission.Carries clock stamped.command ∧ stamped.caller = submission.caller := by
  cases submission
  case updateConfig authority extra₀ extra₁ update =>
    rw [stamp, ConfigUpdate.timestamp] at h
    by_cases htime : update.words.first = 0
    · rw [if_pos htime] at h
      obtain ⟨time, hclock, hstamped⟩ := bind_eq_ok_iff.mp h
      cases hstamped
      rw [Carries, if_pos htime]
      exact ⟨⟨time, hclock, rfl⟩, rfl⟩
    · rw [if_neg htime] at h
      cases h
      rw [Carries, if_neg htime]
      exact ⟨rfl, rfl⟩
  all_goals cases h; exact ⟨rfl, rfl⟩

theorem stamp_of_not_lacksTime (h : ¬ submission.LacksTime) (clock : Except ε UInt32) :
    submission.stamp clock = .ok submission := by
  cases submission
  case updateConfig authority extra₀ extra₁ update => exact if_neg h
  all_goals rfl

/-- Every request is for the program and signed by the caller alone, with the command packed. -/
theorem signed_of_request (h : submission.request deployment = .ok request) :
    request.instruction.program = deployment.program ∧
      submission.command.pack = .ok request.instruction.data ∧
      request.instruction.SignedBy submission.caller := by
  cases submission with
  | tokenDeposit authority wallet mint tokenProgram decimals amount =>
      obtain ⟨source, -, h⟩ := bind_eq_ok_iff.mp h
      obtain ⟨destination, -, h⟩ := bind_eq_ok_iff.mp h
      obtain ⟨data, hdata, rfl⟩ := Request.exists_data_of_ofCommand h
      exact ⟨rfl, hdata, Instruction.TokenTransfer.signedBy _ _ _⟩
  | tokenWithdraw user mint tokenProgram decimals amount =>
      obtain ⟨vault, -, h⟩ := bind_eq_ok_iff.mp h
      obtain ⟨source, -, h⟩ := bind_eq_ok_iff.mp h
      obtain ⟨destination, -, h⟩ := bind_eq_ok_iff.mp h
      obtain ⟨data, hdata, rfl⟩ := Request.exists_data_of_ofCommand h
      exact ⟨rfl, hdata, Instruction.TokenTransfer.signedBy _ _ _⟩
  | escrowMake maker tokenProgram offer =>
      obtain ⟨escrow, -, h⟩ := bind_eq_ok_iff.mp h
      obtain ⟨makerX, -, h⟩ := bind_eq_ok_iff.mp h
      obtain ⟨escrowX, -, h⟩ := bind_eq_ok_iff.mp h
      obtain ⟨config, -, h⟩ := bind_eq_ok_iff.mp h
      obtain ⟨data, hdata, rfl⟩ := Request.exists_data_of_ofCommand h
      exact ⟨rfl, hdata, _, rfl, by simp⟩
  | escrowWithdraw maker mintX mintY tokenProgram id =>
      obtain ⟨settlement, hsettlement, h⟩ := bind_eq_ok_iff.mp h
      obtain ⟨data, hdata, rfl⟩ := Request.exists_data_of_ofCommand h
      obtain rfl := (Deployment.settles_of_settlement hsettlement).maker
      exact ⟨rfl, hdata, settlement.signedBy _ _⟩
  | escrowCancel maker mintX mintY tokenProgram id =>
      obtain ⟨settlement, hsettlement, h⟩ := bind_eq_ok_iff.mp h
      obtain ⟨data, hdata, rfl⟩ := Request.exists_data_of_ofCommand h
      obtain rfl := (Deployment.settles_of_settlement hsettlement).maker
      exact ⟨rfl, hdata, settlement.signedBy _ _⟩
  | initConfig authority settings =>
      obtain ⟨config, -, h⟩ := bind_eq_ok_iff.mp h
      obtain ⟨data, hdata, rfl⟩ := Request.exists_data_of_ofCommand h
      exact ⟨rfl, hdata, _, rfl, by simp [Quad.toList]⟩
  | _ =>
      obtain ⟨derived, -, h⟩ := bind_eq_ok_iff.mp h
      obtain ⟨data, hdata, rfl⟩ := Request.exists_data_of_ofCommand h
      exact ⟨rfl, hdata, _, rfl, by simp⟩

end Submission

namespace Client

variable {σ ε : Type} {client : Client σ ε} {submission : Submission} {state : σ}
  {instruction : Instruction}

/-- The client over the ledger with another clock. -/
def withClock (client : Client σ ε) (clock : σ → Except ε UInt32) : Client σ ε :=
  { client with ledger := { client.ledger with clock } }

theorem submit_withClock (h : ¬ submission.LacksTime) (clock : σ → Except ε UInt32) :
    (client.withClock clock).submit submission state = client.submit submission state := by
  rw [submit, submit, Submission.stamp_of_not_lacksTime h, Submission.stamp_of_not_lacksTime h]
  rfl

theorem submitted_withClock (h : ¬ submission.LacksTime) (clock : σ → Except ε UInt32) :
    (client.withClock clock).submitted submission state = client.submitted submission state := by
  have hrecording : (client.withClock clock).recording =
      client.recording.withClock fun recorded => clock recorded.1 := rfl
  rw [submitted, submitted, hrecording, submit_withClock h]

theorem exists_submitted_of_ok {answer : Option Address}
    (h : (client.submit submission state).result = .ok answer) :
    ∃ instruction, client.submitted submission state = [instruction] := by
  rcases client.submit_cases submission state with
    ⟨-, ⟨failure, hsubmit⟩, -⟩ | ⟨stamped, request, -, -, -, hsubmitted⟩
  · rw [hsubmit] at h
    cases h
  · exact ⟨request.instruction, hsubmitted⟩

/-- A submission that succeeds has handed one instruction to the ledger. What a submission hands
over is for the program and signed by the caller alone, and is the packed command of the caller, for
which the clock matters only if it is an update without a time. -/
theorem signed_command (client : Client σ ε) (submission : Submission) (state : σ) :
    (∀ answer, (client.submit submission state).result = .ok answer →
      ∃ instruction, client.submitted submission state = [instruction]) ∧
    (∀ instruction ∈ client.submitted submission state,
      instruction.program = client.deployment.program ∧
      (∃ command, submission.Carries (client.ledger.clock state) command ∧
        command.pack = .ok instruction.data ∧
        (Command.unpack instruction.data = .ok command ↔
          ∀ label, command.label? = some label → Text.Fits 32 label)) ∧
      instruction.SignedBy submission.caller) ∧
    (¬ submission.LacksTime → ∀ clock,
      (client.withClock clock).submit submission state = client.submit submission state ∧
      (client.withClock clock).submitted submission state =
        client.submitted submission state) := by
  refine ⟨fun answer => exists_submitted_of_ok, ?_, ?_⟩
  · intro instruction h
    obtain ⟨stamped, request, hstamp, hrequest, rfl⟩ := mem_submitted_iff.mp h
    obtain ⟨hcarries, hcaller⟩ := Submission.carries_of_stamp hstamp
    obtain ⟨hprogram, hpack, hsigned⟩ := Submission.signed_of_request hrequest
    rw [hcaller] at hsigned
    exact ⟨hprogram, ⟨stamped.command, hcarries, hpack,
      Command.unpack_of_pack_eq_self_iff hpack⟩, hsigned⟩
  · intro h clock
    exact ⟨submit_withClock h clock, submitted_withClock h clock⟩

def sampleClient : Client MemoryLedger MemoryFailure := MemoryLedger.client true .standard

def sampleLedger : MemoryLedger := { MemoryLedger.empty with now := 7 }

def sampleUpdate (time : UInt32) : Submission :=
  .updateConfig (.ofNat 1) (.ofNat 2) (.ofNat 3)
    { (default : ConfigUpdate) with words := ⟨time, 0, 0, 0⟩ }

/-- An update without a time is sent with the time of the ledger, which is seven, and one that has a
time is sent as well if there is no clock. -/
theorem signed_command_sampleUpdate :
    ∃ instruction,
      sampleClient.submitted (sampleUpdate 0) sampleLedger = [instruction] ∧
      Command.unpack instruction.data =
        .ok (.updateConfig { (default : ConfigUpdate) with words := ⟨7, 0, 0, 0⟩ }) ∧
      (sampleClient.withClock fun _ => .error .offline).submit (sampleUpdate 5) sampleLedger =
        sampleClient.submit (sampleUpdate 5) sampleLedger := by
  have hok : (sampleClient.submit (sampleUpdate 0) sampleLedger).result.toOption.isSome = true := by
    decide +kernel
  obtain ⟨hone, hcommand, -⟩ := signed_command sampleClient (sampleUpdate 0) sampleLedger
  cases hresult : (sampleClient.submit (sampleUpdate 0) sampleLedger).result with
  | error failure =>
      rw [hresult] at hok
      cases hok
  | ok answer =>
      obtain ⟨instruction, hsubmitted⟩ := hone answer hresult
      rw [hsubmitted] at hcommand
      obtain ⟨-, ⟨command, ⟨time, ⟨⟩, rfl⟩, -, hunpack⟩, -⟩ :=
        hcommand instruction (List.mem_singleton_self _)
      refine ⟨instruction, hsubmitted, hunpack.mpr ?_, ?_⟩
      · rintro label ⟨⟩
        exact ⟨by decide, by decide⟩
      · have htime : ¬ (sampleUpdate 5).LacksTime := by
          change ¬ (5 : UInt32) = 0
          decide
        exact ((signed_command sampleClient (sampleUpdate 5) sampleLedger).2.2 htime _).1

end Client

end VaultWire
