import Mathlib.Data.List.Forall2
import VaultWire.Client.Memory
import VaultWire.Proofs.Address.Separation
import VaultWire.Proofs.Client.Recording
import VaultWire.Proofs.Client.Request

/-!
# Token accounts in instructions

An instruction that moves tokens lists token accounts after its first account and a program of
associated token accounts at its end. The listed accounts are those of the known program, whatever
program is listed, so the two agree in the deployments that keep the known program; in another one
they agree only where SHA-256 has a collision.
-/

namespace VaultWire

structure Holding where
  holder : Address
  mint : Address
  tokenProgram : Address
  deriving DecidableEq

namespace Holding

def seeds (holding : Holding) : List Bytes :=
  [holding.holder.bytes, holding.tokenProgram.bytes, holding.mint.bytes]

/-- Whether the searches under two programs end with different messages of the same hash. -/
def Collides (holding : Holding) (p q : Address) : Prop :=
  ∃ address i j, Scheme.standard.find holding.seeds p = .ok (address, i) ∧
    Scheme.standard.find holding.seeds q = .ok (address, j) ∧
    Seeds.message holding.seeds i p ≠ Seeds.message holding.seeds j q ∧
    Sha256.hash (Seeds.message holding.seeds i p) = Sha256.hash (Seeds.message holding.seeds j q)

theorem exists_find_iff_collides {holding : Holding} {p q address : Address} (hne : p ≠ q)
    (h : ∃ i, Scheme.standard.find holding.seeds p = .ok (address, i)) :
    (∃ j, Scheme.standard.find holding.seeds q = .ok (address, j)) ↔ holding.Collides p q := by
  obtain ⟨i, hi⟩ := h
  constructor
  · rintro ⟨j, hj⟩
    refine ⟨address, i, j, hi, hj, ?_, ?_⟩
    · intro hmessage
      exact hne (Seeds.message_eq_iff.mp hmessage).2.2
    · have hcandidate := (Scheme.candidate_of_find hi).trans (Scheme.candidate_of_find hj).symm
      exact congrArg Address.bytes hcandidate
  · rintro ⟨other, i', j, hi', hj, -, -⟩
    rw [hi] at hi'
    cases hi'
    exact ⟨j, hj⟩

end Holding

namespace Submission

/-- The holdings whose token accounts a submission lists, in the order of the list. -/
def holdings (deployment : Deployment) : Submission → Except CodecError (List Holding)
  | tokenDeposit authority wallet mint tokenProgram _ _ =>
    return [⟨authority, mint, tokenProgram⟩, ⟨wallet, mint, tokenProgram⟩]
  | tokenWithdraw user mint tokenProgram _ _ => do
    let vault ← deployment.vaultAddress user
    return [⟨vault, mint, tokenProgram⟩, ⟨user, mint, tokenProgram⟩]
  | escrowMake maker tokenProgram offer => do
    let escrow ← deployment.escrowAddress maker offer.id
    return [⟨maker, offer.mintX, tokenProgram⟩, ⟨escrow, offer.mintX, tokenProgram⟩]
  | escrowWithdraw maker mintX mintY tokenProgram id
  | escrowCancel maker mintX mintY tokenProgram id => do
    let escrow ← deployment.escrowAddress maker id
    return [⟨maker, mintX, tokenProgram⟩, ⟨maker, mintY, tokenProgram⟩,
      ⟨escrow, mintX, tokenProgram⟩, ⟨escrow, mintY, tokenProgram⟩]
  | _ => return []

theorem holdings_of_stamp {ε : Type} {deployment : Deployment} {clock : Except ε UInt32}
    {submission stamped : Submission} (h : submission.stamp clock = .ok stamped) :
    stamped.holdings deployment = submission.holdings deployment := by
  rcases stamp_cases h with rfl | ⟨_, _, _, _, _, -, -, rfl, rfl⟩
  · rfl
  · rfl

end Submission

namespace Instruction

/-- Whether the accounts after the first are the token accounts of the holdings under a program. -/
def ListsTokenAccounts (instruction : Instruction) (holdings : List Holding) (program : Address) :
    Prop :=
  List.Forall₂ (fun holding account =>
      ∃ bump, Scheme.standard.find holding.seeds program = .ok (account.address, bump))
    holdings ((instruction.accounts.drop 1).take holdings.length)

end Instruction

theorem Purpose.address_associatedToken_eq_ok_iff {holder mint tokenProgram address : Address} :
    (associatedToken holder mint tokenProgram).address = .ok address ↔
      ∃ bump, Scheme.standard.find (Holding.seeds ⟨holder, mint, tokenProgram⟩)
        Programs.associatedToken = .ok (address, bump) :=
  Purpose.address_eq_ok_iff

theorem forall₂_iff_forall_mem {α β : Type} {R S : α → β → Prop} {T : α → Prop} {l : List α}
    {m : List β} (h : List.Forall₂ R l m) (hiff : ∀ a b, R a b → (S a b ↔ T a)) :
    List.Forall₂ S l m ↔ ∀ a ∈ l, T a := by
  induction h with
  | nil => simp
  | cons hab _ ih => rw [List.forall₂_cons, List.forall_mem_cons, hiff _ _ hab, ih]

namespace Submission

variable {deployment : Deployment} {submission : Submission} {request : Request}

theorem exists_holdings_of_settlement {maker mintX mintY tokenProgram : Address} {id : UInt64}
    {settlement : Instruction.EscrowSettlement}
    (h : deployment.settlement maker mintX mintY tokenProgram id = .ok settlement) (data : Bytes) :
    ∃ escrow, deployment.escrowAddress maker id = .ok escrow ∧
      Instruction.ListsTokenAccounts
        ⟨deployment.program, settlement.accounts deployment, data⟩
        [⟨maker, mintX, tokenProgram⟩, ⟨maker, mintY, tokenProgram⟩,
          ⟨escrow, mintX, tokenProgram⟩, ⟨escrow, mintY, tokenProgram⟩]
        Programs.associatedToken := by
  have hsettles := Deployment.settles_of_settlement h
  have hmakerX := Purpose.address_associatedToken_eq_ok_iff.mp hsettles.makerTokensX
  have hmakerY := Purpose.address_associatedToken_eq_ok_iff.mp hsettles.makerTokensY
  have hescrowX := Purpose.address_associatedToken_eq_ok_iff.mp hsettles.escrowTokensX
  have hescrowY := Purpose.address_associatedToken_eq_ok_iff.mp hsettles.escrowTokensY
  exact ⟨settlement.escrow, hsettles.escrow,
    .cons hmakerX (.cons hmakerY (.cons hescrowX (.cons hescrowY .nil)))⟩

/-- The token accounts of every request are those of the known program, and the program listed last
is that of the deployment. -/
theorem exists_holdings_of_request (h : submission.request deployment = .ok request) :
    ∃ holdings, submission.holdings deployment = .ok holdings ∧
      request.instruction.ListsTokenAccounts holdings Programs.associatedToken ∧
      (holdings ≠ [] → request.instruction.accounts.getLast?.map (·.address) =
        some deployment.associatedToken) := by
  cases submission
  case tokenDeposit authority wallet mint tokenProgram decimals amount =>
    obtain ⟨source, hsource, h⟩ := bind_eq_ok_iff.mp h
    obtain ⟨destination, hdestination, h⟩ := bind_eq_ok_iff.mp h
    obtain ⟨data, -, rfl⟩ := Request.exists_data_of_ofCommand h
    rw [Purpose.address_associatedToken_eq_ok_iff] at hsource hdestination
    exact ⟨_, rfl, .cons hsource (.cons hdestination .nil), fun _ => rfl⟩
  case tokenWithdraw user mint tokenProgram decimals amount =>
    obtain ⟨vault, hvault, h⟩ := bind_eq_ok_iff.mp h
    obtain ⟨source, hsource, h⟩ := bind_eq_ok_iff.mp h
    obtain ⟨destination, hdestination, h⟩ := bind_eq_ok_iff.mp h
    obtain ⟨data, -, rfl⟩ := Request.exists_data_of_ofCommand h
    rw [Purpose.address_associatedToken_eq_ok_iff] at hsource hdestination
    refine ⟨_, bind_eq_ok_iff.mpr ⟨vault, hvault, rfl⟩, ?_, fun _ => rfl⟩
    exact .cons hsource (.cons hdestination .nil)
  case escrowMake maker tokenProgram offer =>
    obtain ⟨escrow, hescrow, h⟩ := bind_eq_ok_iff.mp h
    obtain ⟨makerX, hmakerX, h⟩ := bind_eq_ok_iff.mp h
    obtain ⟨escrowX, hescrowX, h⟩ := bind_eq_ok_iff.mp h
    obtain ⟨config, -, h⟩ := bind_eq_ok_iff.mp h
    obtain ⟨data, -, rfl⟩ := Request.exists_data_of_ofCommand h
    rw [Purpose.address_associatedToken_eq_ok_iff] at hmakerX hescrowX
    refine ⟨_, bind_eq_ok_iff.mpr ⟨escrow, hescrow, rfl⟩, ?_, fun _ => rfl⟩
    exact .cons hmakerX (.cons hescrowX .nil)
  case escrowWithdraw maker mintX mintY tokenProgram id =>
    obtain ⟨settlement, hsettlement, h⟩ := bind_eq_ok_iff.mp h
    obtain ⟨data, -, rfl⟩ := Request.exists_data_of_ofCommand h
    obtain ⟨escrow, hescrow, hlists⟩ := exists_holdings_of_settlement hsettlement data
    exact ⟨_, bind_eq_ok_iff.mpr ⟨escrow, hescrow, rfl⟩, hlists, fun _ => rfl⟩
  case escrowCancel maker mintX mintY tokenProgram id =>
    obtain ⟨settlement, hsettlement, h⟩ := bind_eq_ok_iff.mp h
    obtain ⟨data, -, rfl⟩ := Request.exists_data_of_ofCommand h
    obtain ⟨escrow, hescrow, hlists⟩ := exists_holdings_of_settlement hsettlement data
    exact ⟨_, bind_eq_ok_iff.mpr ⟨escrow, hescrow, rfl⟩, hlists, fun _ => rfl⟩
  all_goals exact ⟨[], rfl, .nil, fun hne => absurd rfl hne⟩

end Submission

namespace Client

/-- The listed token accounts belong to the listed program exactly if it is the known one, up to
collisions of SHA-256. -/
theorem listsTokenAccounts_iff {σ ε : Type} {client : Client σ ε} {submission : Submission}
    {state : σ} {instruction : Instruction}
    (h : instruction ∈ client.submitted submission state) :
    ∃ holdings, submission.holdings client.deployment = .ok holdings ∧
      (holdings ≠ [] → instruction.accounts.getLast?.map (·.address) =
        some client.deployment.associatedToken) ∧
      instruction.ListsTokenAccounts holdings Programs.associatedToken ∧
      (instruction.ListsTokenAccounts holdings client.deployment.associatedToken ↔
        client.deployment.associatedToken = Programs.associatedToken ∨
          ∀ holding ∈ holdings,
            holding.Collides Programs.associatedToken client.deployment.associatedToken) := by
  obtain ⟨stamped, request, hstamp, hrequest, rfl⟩ := mem_submitted_iff.mp h
  obtain ⟨holdings, hholdings, hlists, hlast⟩ := Submission.exists_holdings_of_request hrequest
  rw [Submission.holdings_of_stamp hstamp] at hholdings
  refine ⟨holdings, hholdings, hlast, hlists, ?_⟩
  by_cases hknown : client.deployment.associatedToken = Programs.associatedToken
  · rw [hknown]
    exact iff_of_true hlists (.inl rfl)
  · rw [or_iff_right hknown]
    exact forall₂_iff_forall_mem hlists fun holding account =>
      Holding.exists_find_iff_collides (Ne.symm hknown)

/-- A client whose deployment has another program of associated token accounts. -/
def retargeted : Client MemoryLedger MemoryFailure :=
  ⟨MemoryLedger.ledger true, { Deployment.standard with associatedToken := .ofNat 9 }⟩

def sampleTransfer : Submission :=
  .tokenDeposit (.ofNat 1) (.ofNat 2) (.ofNat 3) Programs.token 6 1000

theorem exists_submitted_retargeted :
    ∃ instruction, instruction ∈ retargeted.submitted sampleTransfer .empty := by
  have hok : (sampleTransfer.request retargeted.deployment).toOption.isSome = true := by
    decide +kernel
  cases hrequest : sampleTransfer.request retargeted.deployment with
  | error cause => rw [hrequest] at hok; cases hok
  | ok request =>
      exact ⟨request.instruction, mem_submitted_iff.mpr ⟨_, request, rfl, hrequest, rfl⟩⟩

theorem listsTokenAccounts_retargeted :
    ∃ instruction ∈ retargeted.submitted sampleTransfer .empty,
      instruction.ListsTokenAccounts
        [⟨.ofNat 1, .ofNat 3, Programs.token⟩, ⟨.ofNat 2, .ofNat 3, Programs.token⟩]
        Programs.associatedToken := by
  obtain ⟨instruction, hsubmitted⟩ := exists_submitted_retargeted
  obtain ⟨holdings, hholdings, -, hlists, -⟩ := listsTokenAccounts_iff hsubmitted
  cases hholdings
  exact ⟨instruction, hsubmitted, hlists⟩

/-- The token accounts that the client lists are not those of the program that it lists. -/
theorem not_listsTokenAccounts_retargeted :
    ∃ instruction ∈ retargeted.submitted sampleTransfer .empty,
      instruction.accounts.getLast?.map (·.address) = some (.ofNat 9) ∧
      ¬ instruction.ListsTokenAccounts
        [⟨.ofNat 1, .ofNat 3, Programs.token⟩, ⟨.ofNat 2, .ofNat 3, Programs.token⟩]
        (.ofNat 9) := by
  obtain ⟨instruction, hsubmitted⟩ := exists_submitted_retargeted
  obtain ⟨stamped, request, hstamp, hrequest, rfl⟩ := mem_submitted_iff.mp hsubmitted
  obtain ⟨holdings, hholdings, hlists, hlast⟩ := Submission.exists_holdings_of_request hrequest
  rw [Submission.holdings_of_stamp hstamp] at hholdings
  cases hholdings
  refine ⟨request.instruction, hsubmitted, hlast (List.cons_ne_nil _ _), fun hother => ?_⟩
  have hprogram : Programs.associatedToken ≠ .ofNat 9 := by decide +kernel
  have hcollides := (forall₂_iff_forall_mem hlists fun holding account =>
    Holding.exists_find_iff_collides hprogram).mp hother
  obtain ⟨address, i, j, hi, hj, -, -⟩ := hcollides _ List.mem_cons_self
  have hdiffer :
      (Scheme.standard.find (Holding.seeds ⟨.ofNat 1, .ofNat 3, Programs.token⟩)
        Programs.associatedToken).toOption.map (·.1) ≠
      (Scheme.standard.find (Holding.seeds ⟨.ofNat 1, .ofNat 3, Programs.token⟩)
        (.ofNat 9)).toOption.map (·.1) := by
    decide +kernel
  rw [hi, hj] at hdiffer
  exact hdiffer rfl

end Client

end VaultWire
