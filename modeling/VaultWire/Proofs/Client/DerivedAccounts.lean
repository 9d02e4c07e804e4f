import Mathlib.Data.List.Basic
import VaultWire.Client.Memory
import VaultWire.Proofs.Client.Recording
import VaultWire.Proofs.Client.Request

/-!
# Derived accounts in instructions

Every operation derives the accounts that it needs anew and lists them in places of its own. What
stands in which place is told here once, as roles, and a role is filled by one address for all
operations of a deployment. So operations that use an account in the same role use the same account.
-/

namespace VaultWire

/-- Who holds tokens: a key, or an account that the program derives for a key. -/
inductive Holder where
  | wallet (address : Address)
  | vault (owner : Address)
  | escrow (maker : Address) (id : UInt64)
  deriving DecidableEq

def Holder.address (deployment : Deployment) : Holder → Except CodecError Address
  | wallet address => .ok address
  | vault owner => deployment.vaultAddress owner
  | escrow maker id => deployment.escrowAddress maker id

/-- What a derived account is used for. -/
inductive Role where
  | config
  | of (holder : Holder)
  | tokens (holder : Holder) (mint tokenProgram : Address)
  deriving DecidableEq

namespace Role

def address (deployment : Deployment) : Role → Except CodecError Address
  | config => deployment.configAddress
  | of holder => holder.address deployment
  | tokens holder mint tokenProgram => do
    (Purpose.associatedToken (← holder.address deployment) mint tokenProgram).address

variable {deployment : Deployment} {owner mint tokenProgram held : Address}

theorem address_config : config.address deployment = deployment.configAddress := by
  rw [Role.address]

theorem address_of_vault :
    (of (.vault owner)).address deployment = deployment.vaultAddress owner := by
  rw [Role.address, Holder.address]

theorem address_of_escrow {maker : Address} {id : UInt64} :
    (of (.escrow maker id)).address deployment = deployment.escrowAddress maker id := by
  rw [Role.address, Holder.address]

/-- The vault of an owner holds tokens as a wallet of its address does. -/
theorem address_tokens_vault (h : deployment.vaultAddress owner = .ok held) :
    (tokens (.wallet held) mint tokenProgram).address deployment =
      (tokens (.vault owner) mint tokenProgram).address deployment := by
  rw [Role.address, Role.address, Holder.address, Holder.address, h]

end Role

namespace Instruction

def slot (instruction : Instruction) (index : Nat) : Option Address :=
  instruction.accounts[index]?.map (·.address)

/-- Whether a place of one instruction and a place of another hold the same account. -/
def Shares (a : Instruction) (i : Nat) (b : Instruction) (j : Nat) : Prop :=
  ∃ address, a.slot i = some address ∧ b.slot j = some address

/-- Whether the account in a place is the one for a role. -/
def Lists (instruction : Instruction) (deployment : Deployment) (index : Nat) (role : Role) :
    Prop :=
  ∃ address, role.address deployment = .ok address ∧ instruction.slot index = some address

variable {instruction other : Instruction} {deployment : Deployment} {i j : Nat} {role : Role}
  {holder : Holder} {owner maker mint tokenProgram address held : Address} {id : UInt64}

theorem lists_config (h : deployment.configAddress = .ok address)
    (hslot : instruction.slot i = some address) : instruction.Lists deployment i .config :=
  ⟨address, Role.address_config.trans h, hslot⟩

theorem lists_vault (h : deployment.vaultAddress owner = .ok address)
    (hslot : instruction.slot i = some address) :
    instruction.Lists deployment i (.of (.vault owner)) :=
  ⟨address, Role.address_of_vault.trans h, hslot⟩

theorem lists_escrow (h : deployment.escrowAddress maker id = .ok address)
    (hslot : instruction.slot i = some address) :
    instruction.Lists deployment i (.of (.escrow maker id)) :=
  ⟨address, Role.address_of_escrow.trans h, hslot⟩

theorem lists_tokens (hholder : holder.address deployment = .ok held)
    (htokens : (Purpose.associatedToken held mint tokenProgram).address = .ok address)
    (hslot : instruction.slot i = some address) :
    instruction.Lists deployment i (.tokens holder mint tokenProgram) := by
  refine ⟨address, ?_, hslot⟩
  rw [Role.address, bind_eq_ok_iff]
  exact ⟨held, hholder, htokens⟩

theorem lists_walletTokens
    (htokens : (Purpose.associatedToken owner mint tokenProgram).address = .ok address)
    (hslot : instruction.slot i = some address) :
    instruction.Lists deployment i (.tokens (.wallet owner) mint tokenProgram) :=
  lists_tokens rfl htokens hslot

theorem lists_vaultTokens (hvault : deployment.vaultAddress owner = .ok held)
    (htokens : (Purpose.associatedToken held mint tokenProgram).address = .ok address)
    (hslot : instruction.slot i = some address) :
    instruction.Lists deployment i (.tokens (.vault owner) mint tokenProgram) := by
  refine lists_tokens ?_ htokens hslot
  rw [Holder.address, hvault]

theorem lists_escrowTokens (hescrow : deployment.escrowAddress maker id = .ok held)
    (htokens : (Purpose.associatedToken held mint tokenProgram).address = .ok address)
    (hslot : instruction.slot i = some address) :
    instruction.Lists deployment i (.tokens (.escrow maker id) mint tokenProgram) := by
  refine lists_tokens ?_ htokens hslot
  rw [Holder.address, hescrow]

theorem Lists.shares {r s : Role} (ha : instruction.Lists deployment i r)
    (hb : other.Lists deployment j s) (h : r.address deployment = s.address deployment) :
    instruction.Shares i other j := by
  obtain ⟨address, hr, hi⟩ := ha
  obtain ⟨found, hs, hj⟩ := hb
  have hsame : Except.ok address = Except.ok found := hr.symm.trans (h.trans hs)
  cases hsame
  exact ⟨address, hi, hj⟩

end Instruction

namespace Submission

/-- The places of derived accounts, counted from zero, and what each account is used for. -/
def roles : Submission → List (Nat × Role)
  | deposit owner _ => [(1, .of (.vault owner))]
  | withdraw owner _ => [(1, .of (.vault owner))]
  | tokenDeposit authority wallet mint tokenProgram _ _ =>
    [(1, .tokens (.wallet authority) mint tokenProgram),
      (2, .tokens (.wallet wallet) mint tokenProgram)]
  | tokenWithdraw user mint tokenProgram _ _ =>
    [(1, .tokens (.vault user) mint tokenProgram), (2, .tokens (.wallet user) mint tokenProgram),
      (3, .of (.vault user))]
  | initConfig .. | updateConfig .. | closeConfig .. | configResize .. => [(1, .config)]
  | escrowMake maker tokenProgram offer =>
    [(1, .tokens (.wallet maker) offer.mintX tokenProgram),
      (2, .tokens (.escrow maker offer.id) offer.mintX tokenProgram),
      (3, .of (.escrow maker offer.id)), (6, .config)]
  | escrowWithdraw maker mintX mintY tokenProgram id
  | escrowCancel maker mintX mintY tokenProgram id =>
    [(1, .tokens (.wallet maker) mintX tokenProgram),
      (2, .tokens (.wallet maker) mintY tokenProgram),
      (3, .tokens (.escrow maker id) mintX tokenProgram),
      (4, .tokens (.escrow maker id) mintY tokenProgram),
      (7, .of (.escrow maker id)), (8, .config)]

/-- The place of the account that the caller is told, if there is one. -/
def answerSlot : Submission → Option Nat
  | deposit .. | withdraw .. | initConfig .. => some 1
  | escrowMake .. => some 3
  | _ => none

/-- The place of the config, in the operations that list it. -/
def configSlot : Submission → Option Nat
  | initConfig .. | updateConfig .. | closeConfig .. | configResize .. => some 1
  | escrowMake .. => some 6
  | escrowWithdraw .. | escrowCancel .. => some 8
  | _ => none

variable {ε : Type} {clock : Except ε UInt32} {deployment : Deployment}
  {submission stamped : Submission} {request : Request}

theorem roles_of_stamp (h : submission.stamp clock = .ok stamped) :
    stamped.roles = submission.roles ∧ stamped.answerSlot = submission.answerSlot := by
  rcases stamp_cases h with rfl | ⟨_, _, _, _, _, -, -, rfl, rfl⟩
  · exact ⟨rfl, rfl⟩
  · exact ⟨rfl, rfl⟩

/-- An escrow that is withdrawn and one that is cancelled list the same accounts. -/
theorem roles_of_mem_endings {maker mintX mintY tokenProgram : Address} {id : UInt64}
    (h : submission ∈ [escrowWithdraw maker mintX mintY tokenProgram id,
      escrowCancel maker mintX mintY tokenProgram id]) :
    submission.roles = (escrowCancel maker mintX mintY tokenProgram id).roles := by
  rcases List.mem_pair.mp h with rfl | rfl
  · rfl
  · rfl

/-- Lamports that go to a vault and lamports that come from it are answered with the vault. -/
theorem answerSlot_of_mem_moves {owner : Address} {amount : UInt64}
    (h : submission ∈ [deposit owner amount, withdraw owner amount]) :
    submission.answerSlot = some 1 ∧ (1, Role.of (.vault owner)) ∈ submission.roles := by
  rcases List.mem_pair.mp h with rfl | rfl
  · exact ⟨rfl, List.mem_singleton_self _⟩
  · exact ⟨rfl, List.mem_singleton_self _⟩

theorem config_mem_roles {slot : Nat} (h : submission.configSlot = some slot) :
    (slot, Role.config) ∈ submission.roles := by
  cases submission <;> cases h <;> simp [roles]

/-- Whether an instruction lists the accounts of all roles in their places. -/
def Placed (submission : Submission) (deployment : Deployment) (instruction : Instruction) : Prop :=
  submission.roles.Forall fun entry => instruction.Lists deployment entry.1 entry.2

theorem placed_of_settlement {maker mintX mintY tokenProgram : Address} {id : UInt64}
    {settlement : Instruction.EscrowSettlement} {data : Bytes}
    (h : deployment.settlement maker mintX mintY tokenProgram id = .ok settlement) :
    (escrowCancel maker mintX mintY tokenProgram id).Placed deployment
      ⟨deployment.program, settlement.accounts deployment, data⟩ := by
  have hsettles := Deployment.settles_of_settlement h
  exact ⟨Instruction.lists_walletTokens hsettles.makerTokensX rfl,
    Instruction.lists_walletTokens hsettles.makerTokensY rfl,
    Instruction.lists_escrowTokens hsettles.escrow hsettles.escrowTokensX rfl,
    Instruction.lists_escrowTokens hsettles.escrow hsettles.escrowTokensY rfl,
    Instruction.lists_escrow hsettles.escrow rfl, Instruction.lists_config hsettles.config rfl⟩

/-- Every request lists the accounts of its roles in their places, and the answer is one of them. -/
theorem placed_of_request (h : submission.request deployment = .ok request) :
    submission.Placed deployment request.instruction ∧
      request.answer = submission.answerSlot.bind request.instruction.slot := by
  cases submission with
  | deposit owner amount =>
      obtain ⟨vault, hvault, h⟩ := bind_eq_ok_iff.mp h
      obtain ⟨data, -, rfl⟩ := Request.exists_data_of_ofCommand h
      exact ⟨Instruction.lists_vault hvault rfl, rfl⟩
  | withdraw owner amount =>
      obtain ⟨vault, hvault, h⟩ := bind_eq_ok_iff.mp h
      obtain ⟨data, -, rfl⟩ := Request.exists_data_of_ofCommand h
      exact ⟨Instruction.lists_vault hvault rfl, rfl⟩
  | tokenDeposit authority wallet mint tokenProgram decimals amount =>
      obtain ⟨source, hsource, h⟩ := bind_eq_ok_iff.mp h
      obtain ⟨destination, hdestination, h⟩ := bind_eq_ok_iff.mp h
      obtain ⟨data, -, rfl⟩ := Request.exists_data_of_ofCommand h
      exact ⟨⟨Instruction.lists_walletTokens hsource rfl,
        Instruction.lists_walletTokens hdestination rfl⟩, rfl⟩
  | tokenWithdraw user mint tokenProgram decimals amount =>
      obtain ⟨vault, hvault, h⟩ := bind_eq_ok_iff.mp h
      obtain ⟨source, hsource, h⟩ := bind_eq_ok_iff.mp h
      obtain ⟨destination, hdestination, h⟩ := bind_eq_ok_iff.mp h
      obtain ⟨data, -, rfl⟩ := Request.exists_data_of_ofCommand h
      exact ⟨⟨Instruction.lists_vaultTokens hvault hsource rfl,
        Instruction.lists_walletTokens hdestination rfl, Instruction.lists_vault hvault rfl⟩, rfl⟩
  | escrowMake maker tokenProgram offer =>
      obtain ⟨escrow, hescrow, h⟩ := bind_eq_ok_iff.mp h
      obtain ⟨makerX, hmakerX, h⟩ := bind_eq_ok_iff.mp h
      obtain ⟨escrowX, hescrowX, h⟩ := bind_eq_ok_iff.mp h
      obtain ⟨config, hconfig, h⟩ := bind_eq_ok_iff.mp h
      obtain ⟨data, -, rfl⟩ := Request.exists_data_of_ofCommand h
      exact ⟨⟨Instruction.lists_walletTokens hmakerX rfl,
        Instruction.lists_escrowTokens hescrow hescrowX rfl, Instruction.lists_escrow hescrow rfl,
        Instruction.lists_config hconfig rfl⟩, rfl⟩
  | escrowWithdraw maker mintX mintY tokenProgram id =>
      obtain ⟨settlement, hsettlement, h⟩ := bind_eq_ok_iff.mp h
      obtain ⟨data, -, rfl⟩ := Request.exists_data_of_ofCommand h
      exact ⟨placed_of_settlement hsettlement, rfl⟩
  | escrowCancel maker mintX mintY tokenProgram id =>
      obtain ⟨settlement, hsettlement, h⟩ := bind_eq_ok_iff.mp h
      obtain ⟨data, -, rfl⟩ := Request.exists_data_of_ofCommand h
      exact ⟨placed_of_settlement hsettlement, rfl⟩
  | _ =>
      obtain ⟨config, hconfig, h⟩ := bind_eq_ok_iff.mp h
      obtain ⟨data, -, rfl⟩ := Request.exists_data_of_ofCommand h
      exact ⟨Instruction.lists_config hconfig rfl, rfl⟩

end Submission

namespace Client

variable {σ ε : Type} {client : Client σ ε} {submission : Submission} {state : σ}
  {instruction : Instruction} {address absent : Address} {index : Nat} {role : Role}

theorem lists_of_submitted (h : instruction ∈ client.submitted submission state)
    (hrole : (index, role) ∈ submission.roles) :
    instruction.Lists client.deployment index role := by
  obtain ⟨stamped, request, hstamp, hrequest, rfl⟩ := mem_submitted_iff.mp h
  have hplaced := (Submission.placed_of_request hrequest).1
  rw [Submission.Placed, (Submission.roles_of_stamp hstamp).1] at hplaced
  exact List.forall_iff_forall_mem.mp hplaced _ hrole

/-- An account in a role of a known address stands in the place of the role. -/
theorem slot_of_submitted (h : instruction ∈ client.submitted submission state)
    (hrole : (index, role) ∈ submission.roles)
    (haddress : role.address client.deployment = .ok address) :
    instruction.slot index = some address := by
  obtain ⟨listed, hlisted, hslot⟩ := lists_of_submitted h hrole
  have hsame : Except.ok listed = Except.ok address := hlisted.symm.trans haddress
  cases hsame
  exact hslot

/-- Operations that use an account in one role use the same account. -/
theorem shares_of_submitted {other : Instruction} {s t : Submission} {before later : σ} {i j : Nat}
    (role : Role) (ha : instruction ∈ client.submitted s before) (hi : (i, role) ∈ s.roles)
    (hb : other ∈ client.submitted t later) (hj : (j, role) ∈ t.roles) :
    instruction.Shares i other j :=
  (lists_of_submitted ha hi).shares (lists_of_submitted hb hj) rfl

/-- A submission whose answer stands in a place reports the account of the role of that place. -/
theorem told_of_submit (role : Role) {answer : Option Address}
    (h : (client.submit submission state).result = .ok answer)
    (hslot : submission.answerSlot = some index) (hrole : (index, role) ∈ submission.roles) :
    ∃ address instruction, answer = some address ∧
      client.submitted submission state = [instruction] ∧
      instruction.slot index = some address ∧ role.address client.deployment = .ok address := by
  rcases client.submit_cases submission state with
    ⟨-, ⟨failure, hsubmit⟩, -⟩ | ⟨stamped, request, hstamp, hrequest, hsubmit, hsubmitted⟩
  · rw [hsubmit] at h
    cases h
  · rw [hsubmit] at h
    have hmem : request.instruction ∈ client.submitted submission state := by
      rw [hsubmitted]
      exact List.mem_singleton_self _
    obtain ⟨address, haddress, hlisted⟩ := lists_of_submitted hmem hrole
    refine ⟨address, request.instruction, ?_, hsubmitted, hlisted, haddress⟩
    rw [answer_of_send h, (Submission.placed_of_request hrequest).2,
      (Submission.roles_of_stamp hstamp).2, hslot, Option.bind_some, hlisted]

theorem absent_of_fetch {α : Type} {read : Bytes → Except CodecError α}
    (h : ((client.fetch address state).andThen read).result = .error (.accountNotFound absent)) :
    absent = address := by
  rw [fetch, Outcome.andThen] at h
  rcases hfetch : client.ledger.fetch address state with failure | _ | bytes
  · rw [hfetch] at h
    cases h
  · rw [hfetch] at h
    cases h
    rfl
  · rw [hfetch] at h
    change (read bytes).mapError ClientError.codec = _ at h
    cases hread : read bytes with
    | error cause => rw [hread] at h; cases h
    | ok value => rw [hread] at h; cases h

theorem fetchEscrow_of_address {maker : Address} {id : UInt64}
    (h : client.deployment.escrowAddress maker id = .ok address) (state : σ) :
    client.fetchEscrow maker id state = (client.fetch address state).andThen Packed.unpack := by
  rw [fetchEscrow, h, fetchAt]

theorem fetchConfig_of_address (h : client.deployment.configAddress = .ok address) (state : σ) :
    client.fetchConfig state = (client.fetch address state).andThen Packed.unpack := by
  rw [fetchConfig, h, fetchAt]

/-- The operations of a client agree on its derived accounts. -/
structure AccountsAgree (client : Client σ ε) : Prop where
  /-- The escrow that is reported when it is made is the one that is made, ended and read. -/
  escrow : ∀ maker tokenProgram offer before answer,
    (client.submit (.escrowMake maker tokenProgram offer) before).result = .ok answer →
      ∃ escrow made, answer = some escrow ∧
        client.submitted (.escrowMake maker tokenProgram offer) before = [made] ∧
        made.slot 3 = some escrow ∧
        (∀ mintX mintY program, ∀ ending ∈
            [Submission.escrowWithdraw maker mintX mintY program offer.id,
              .escrowCancel maker mintX mintY program offer.id],
          ∀ later, ∀ ended ∈ client.submitted ending later, ended.slot 7 = some escrow) ∧
        ∀ later, client.fetchEscrow maker offer.id later =
            (client.fetch escrow later).andThen Packed.unpack ∧
          ∀ absent, (client.fetchEscrow maker offer.id later).result =
            .error (.accountNotFound absent) → absent = escrow
  /-- The tokens that an escrow is made with are those that it is ended with. -/
  escrowTokens : ∀ maker tokenProgram offer mintY before later,
    ∀ made ∈ client.submitted (.escrowMake maker tokenProgram offer) before,
    ∀ ending ∈ [Submission.escrowWithdraw maker offer.mintX mintY tokenProgram offer.id,
        .escrowCancel maker offer.mintX mintY tokenProgram offer.id],
    ∀ ended ∈ client.submitted ending later, made.Shares 1 ended 1 ∧ made.Shares 2 ended 3
  /-- The vault that is reported is the one that lamports are moved to and from, and tokens to and
  from its token account. -/
  vault : ∀ owner amount before answer,
    ∀ moving ∈ [Submission.deposit owner amount, .withdraw owner amount],
    (client.submit moving before).result = .ok answer →
      ∃ vault moved, client.deployment.vaultAddress owner = .ok vault ∧ answer = some vault ∧
        client.submitted moving before = [moved] ∧ moved.slot 1 = some vault ∧
        ∀ mint tokenProgram decimals tokens later, ∀ taken ∈ client.submitted
            (.tokenWithdraw owner mint tokenProgram decimals tokens) later,
          taken.slot 3 = some vault ∧
          ∀ decimals tokens later, ∀ stored ∈ client.submitted
              (.tokenDeposit owner vault mint tokenProgram decimals tokens) later,
            stored.Shares 2 taken 1 ∧ stored.Shares 1 taken 2
  /-- All operations that list the config list the one that is read and told. -/
  config : ∀ submission index, submission.configSlot = some index →
    ∀ state, ∀ instruction ∈ client.submitted submission state,
      ∃ config, client.deployment.configAddress = .ok config ∧
        instruction.slot index = some config
  configTold : ∀ authority settings state answer,
    (client.submit (.initConfig authority settings) state).result = .ok answer →
      ∃ config, client.deployment.configAddress = .ok config ∧ answer = some config
  configRead : ∀ config, client.deployment.configAddress = .ok config → ∀ state,
    (Operation.configAddress.run client state).result = .ok (.address config) ∧
      client.fetchConfig state = (client.fetch config state).andThen Packed.unpack ∧
      ∀ absent, (client.fetchConfig state).result = .error (.accountNotFound absent) →
        absent = config

theorem shares_escrowTokens {maker tokenProgram mintY : Address} {offer : Instruction.EscrowOffer}
    {before later : σ} {made ended : Instruction} {ending : Submission}
    (hmade : made ∈ client.submitted (.escrowMake maker tokenProgram offer) before)
    (hending : ending ∈ [Submission.escrowWithdraw maker offer.mintX mintY tokenProgram offer.id,
      .escrowCancel maker offer.mintX mintY tokenProgram offer.id])
    (hended : ended ∈ client.submitted ending later) :
    made.Shares 1 ended 1 ∧ made.Shares 2 ended 3 := by
  have hroles := Submission.roles_of_mem_endings hending
  constructor
  · apply shares_of_submitted (.tokens (.wallet maker) offer.mintX tokenProgram) hmade _ hended
    · rw [hroles]
      simp [Submission.roles]
    · simp [Submission.roles]
  · apply shares_of_submitted (.tokens (.escrow maker offer.id) offer.mintX tokenProgram)
      hmade _ hended
    · rw [hroles]
      simp [Submission.roles]
    · simp [Submission.roles]

theorem shares_vaultTokens {owner vault mint tokenProgram : Address} {decimals decimals' : UInt8}
    {amount amount' : UInt64} {before later : σ} {taken stored : Instruction}
    (hvault : client.deployment.vaultAddress owner = .ok vault)
    (htaken : taken ∈
      client.submitted (.tokenWithdraw owner mint tokenProgram decimals amount) before)
    (hstored : stored ∈
      client.submitted (.tokenDeposit owner vault mint tokenProgram decimals' amount') later) :
    stored.Shares 2 taken 1 ∧ stored.Shares 1 taken 2 := by
  constructor
  · have hstoredVault :
        stored.Lists client.deployment 2 (.tokens (.wallet vault) mint tokenProgram) :=
      lists_of_submitted hstored (by simp [Submission.roles])
    have htakenVault : taken.Lists client.deployment 1 (.tokens (.vault owner) mint tokenProgram) :=
      lists_of_submitted htaken (by simp [Submission.roles])
    exact hstoredVault.shares htakenVault (Role.address_tokens_vault hvault)
  · apply shares_of_submitted (.tokens (.wallet owner) mint tokenProgram) hstored _ htaken
    · simp [Submission.roles]
    · simp [Submission.roles]

/-- Every client, over any ledger and with any program ids, agrees on its derived accounts. -/
theorem accounts_agree (client : Client σ ε) : client.AccountsAgree where
  escrow := by
    intro maker tokenProgram offer before answer h
    obtain ⟨escrow, made, hanswer, hsubmitted, hslot, hrole⟩ :=
      told_of_submit (.of (.escrow maker offer.id)) h rfl (by simp [Submission.roles])
    refine ⟨escrow, made, hanswer, hsubmitted, hslot, ?_, ?_⟩
    · intro mintX mintY program ending hending later ended hended
      refine slot_of_submitted hended ?_ hrole
      rw [Submission.roles_of_mem_endings hending]
      simp [Submission.roles]
    · intro later
      rw [Role.address_of_escrow] at hrole
      rw [fetchEscrow_of_address hrole]
      exact ⟨rfl, fun absent => absent_of_fetch⟩
  escrowTokens := by
    intro maker tokenProgram offer mintY before later made hmade ending hending ended hended
    exact shares_escrowTokens hmade hending hended
  vault := by
    intro owner amount before answer moving hmoving h
    obtain ⟨hanswered, hrole⟩ := Submission.answerSlot_of_mem_moves hmoving
    obtain ⟨vault, moved, hanswer, hsubmitted, hslot, haddress⟩ :=
      told_of_submit (.of (.vault owner)) h hanswered hrole
    have hvault := Role.address_of_vault.symm.trans haddress
    refine ⟨vault, moved, hvault, hanswer, hsubmitted, hslot, ?_⟩
    intro mint tokenProgram decimals tokens later taken htaken
    refine ⟨slot_of_submitted htaken (by simp [Submission.roles]) haddress, ?_⟩
    intro decimals' tokens' later' stored hstored
    exact shares_vaultTokens hvault htaken hstored
  config := by
    intro submission index hindex state instruction hsubmitted
    obtain ⟨config, hconfig, hslot⟩ :=
      lists_of_submitted hsubmitted (Submission.config_mem_roles hindex)
    rw [Role.address_config] at hconfig
    exact ⟨config, hconfig, hslot⟩
  configTold := by
    intro authority settings state answer h
    obtain ⟨config, -, hanswer, -, -, hrole⟩ :=
      told_of_submit .config h rfl (by simp [Submission.roles])
    rw [Role.address_config] at hrole
    exact ⟨config, hrole, hanswer⟩
  configRead := by
    intro config hconfig state
    rw [fetchConfig_of_address hconfig, Operation.run, Outcome.ofResult, hconfig]
    exact ⟨rfl, rfl, fun absent => absent_of_fetch⟩

def sampleOffer : Instruction.EscrowOffer := ⟨.ofNat 2, .ofNat 3, 6, 1000, 9, 2000, 2⟩

def sampleMake : Submission := .escrowMake (.ofNat 1) Programs.token sampleOffer

/-- An escrow is made, and missed where it is read while nothing is stored there. -/
theorem accounts_agree_sampleOffer :
    ∃ escrow made,
      (MemoryLedger.client true .standard).submitted sampleMake .empty = [made] ∧
      made.slot 3 = some escrow ∧
      ((MemoryLedger.client true .standard).fetchEscrow (.ofNat 1) sampleOffer.id .empty).result =
        .error (.accountNotFound escrow) := by
  have hok : ((MemoryLedger.client true .standard).submit
      sampleMake .empty).result.toOption.isSome = true := by
    decide +kernel
  cases hresult : ((MemoryLedger.client true .standard).submit sampleMake .empty).result with
  | error failure =>
      rw [hresult] at hok
      cases hok
  | ok answer =>
      obtain ⟨escrow, made, -, hsubmitted, hslot, -, hread⟩ :=
        (accounts_agree (MemoryLedger.client true .standard)).escrow _ _ _ _ _ hresult
      refine ⟨escrow, made, hsubmitted, hslot, ?_⟩
      rw [(hread .empty).1]
      rfl

end Client

end VaultWire
