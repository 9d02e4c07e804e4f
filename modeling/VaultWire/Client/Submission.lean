import VaultWire.Address.Purpose
import VaultWire.Instruction.Build

/-!
# What a client can submit

Eleven kinds of submissions, told by what the caller knows. A submission is turned into a request:
the derived accounts are filled in and the instruction is built. The request also holds the address
that the caller is told once the ledger has accepted the instruction.
-/

namespace VaultWire

inductive Submission where
  | deposit (owner : Address) (amount : UInt64)
  | withdraw (owner : Address) (amount : UInt64)
  /-- Move tokens from the authority's token account to the wallet's. -/
  | tokenDeposit (authority wallet mint tokenProgram : Address) (decimals : UInt8)
      (amount : UInt64)
  /-- Move tokens from the token account of the user's vault back to the user's own. -/
  | tokenWithdraw (user mint tokenProgram : Address) (decimals : UInt8) (amount : UInt64)
  | initConfig (authority : Address) (settings : Instruction.ConfigSettings)
  | updateConfig (authority extra₀ extra₁ : Address) (update : ConfigUpdate)
  | closeConfig (authority destination : Address)
  | configResize (authority programOwner : Address) (newSize : UInt64)
  | escrowMake (maker tokenProgram : Address) (offer : Instruction.EscrowOffer)
  | escrowWithdraw (maker mintX mintY tokenProgram : Address) (id : UInt64)
  | escrowCancel (maker mintX mintY tokenProgram : Address) (id : UInt64)
  deriving DecidableEq

/-- An instruction to submit, and the address to report once it is accepted. -/
structure Request where
  instruction : Instruction
  answer : Option Address
  deriving DecidableEq

namespace Deployment

def configAddress (deployment : Deployment) : Except CodecError Address :=
  (Purpose.config deployment.program).address

def vaultAddress (deployment : Deployment) (owner : Address) : Except CodecError Address :=
  (Purpose.vault deployment.program owner).address

def escrowAddress (deployment : Deployment) (maker : Address) (id : UInt64) :
    Except CodecError Address :=
  (Purpose.escrow deployment.program maker id).address

/-- The accounts of an escrow that is settled or cancelled. -/
def settlement (deployment : Deployment) (maker mintX mintY tokenProgram : Address) (id : UInt64) :
    Except CodecError Instruction.EscrowSettlement := do
  let escrow ← deployment.escrowAddress maker id
  let makerTokensX ← (Purpose.associatedToken maker mintX tokenProgram).address
  let makerTokensY ← (Purpose.associatedToken maker mintY tokenProgram).address
  let escrowTokensX ← (Purpose.associatedToken escrow mintX tokenProgram).address
  let escrowTokensY ← (Purpose.associatedToken escrow mintY tokenProgram).address
  let config ← deployment.configAddress
  return { maker, makerTokensX, makerTokensY, escrowTokensX, escrowTokensY, mintX, mintY, escrow,
           config, tokenProgram }

end Deployment

namespace Submission

/-- The submission as it is sent: an update without a time takes the ledger's. The clock is read for
nothing else, so it may fail unnoticed. -/
def stamp {ε : Type} (clock : Except ε UInt32) : Submission → Except ε Submission
  | updateConfig authority extra₀ extra₁ update =>
    if update.timestamp = 0 then do
      return updateConfig authority extra₀ extra₁ (update.withTimestamp (← clock))
    else return updateConfig authority extra₀ extra₁ update
  | submission => return submission

def request (deployment : Deployment) : Submission → Except CodecError Request
  | deposit owner amount => do
    let vault ← deployment.vaultAddress owner
    return ⟨← Instruction.deposit deployment.program owner vault amount, some vault⟩
  | withdraw owner amount => do
    let vault ← deployment.vaultAddress owner
    return ⟨← Instruction.withdraw deployment.program owner vault amount, some vault⟩
  | tokenDeposit authority wallet mint tokenProgram decimals amount => do
    let source ← (Purpose.associatedToken authority mint tokenProgram).address
    let destination ← (Purpose.associatedToken wallet mint tokenProgram).address
    let transfer := { authority, source, destination, wallet, mint, tokenProgram }
    return ⟨← Instruction.tokenDeposit deployment transfer decimals amount, none⟩
  | tokenWithdraw user mint tokenProgram decimals amount => do
    let vault ← deployment.vaultAddress user
    let source ← (Purpose.associatedToken vault mint tokenProgram).address
    let destination ← (Purpose.associatedToken user mint tokenProgram).address
    let transfer :=
      { authority := user, source, destination, wallet := vault, mint, tokenProgram }
    return ⟨← Instruction.tokenWithdraw deployment transfer decimals amount, none⟩
  | initConfig authority settings => do
    let config ← deployment.configAddress
    return ⟨← Instruction.initConfig deployment.program authority config settings, some config⟩
  | updateConfig authority extra₀ extra₁ update => do
    let config ← deployment.configAddress
    return ⟨← Instruction.updateConfig deployment.program authority config extra₀ extra₁ update,
      none⟩
  | closeConfig authority destination => do
    let config ← deployment.configAddress
    return ⟨← Instruction.closeConfig deployment.program authority config destination, none⟩
  | configResize authority programOwner newSize => do
    let config ← deployment.configAddress
    return ⟨← Instruction.configResize deployment.program authority config programOwner newSize,
      none⟩
  | escrowMake maker tokenProgram offer => do
    let escrow ← deployment.escrowAddress maker offer.id
    let makerTokensX ← (Purpose.associatedToken maker offer.mintX tokenProgram).address
    let escrowTokens ← (Purpose.associatedToken escrow offer.mintX tokenProgram).address
    let config ← deployment.configAddress
    let opening := { maker, makerTokensX, escrowTokens, escrow, config, tokenProgram }
    return ⟨← Instruction.escrowMake deployment opening offer, some escrow⟩
  | escrowWithdraw maker mintX mintY tokenProgram id => do
    let settlement ← deployment.settlement maker mintX mintY tokenProgram id
    return ⟨← Instruction.escrowWithdraw deployment settlement id, none⟩
  | escrowCancel maker mintX mintY tokenProgram id => do
    let settlement ← deployment.settlement maker mintX mintY tokenProgram id
    return ⟨← Instruction.escrowCancel deployment settlement, none⟩

end Submission

end VaultWire
