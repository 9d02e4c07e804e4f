import VaultWire.Address.Deployment
import VaultWire.Instruction.Basic

/-!
# One instruction for each operation

Each function lists the accounts of an operation in the order that the program expects. The system
program is always the ledger's own, whatever the deployment says.
-/

namespace VaultWire.Instruction

open AccountRef

def deposit (program owner vault : Address) (amount : UInt64) : Except CodecError Instruction :=
  ofCommand program (.deposit amount)
    [signer owner, writable vault, readonly program, readonly Programs.system]

def withdraw (program owner vault : Address) (amount : UInt64) : Except CodecError Instruction :=
  ofCommand program (.withdraw amount) [signer owner, writable vault, readonly program]

def token2022Mint (program owner : Address) (decimals : UInt8) : Except CodecError Instruction :=
  ofCommand program (.token2022Mint decimals) [signer owner]

/-- Create a token account of the token program of 2022; the new account signs as well. -/
def token2022InitAccount (deployment : Deployment) (payer owner mint tokenAccount : Address) :
    Except CodecError Instruction :=
  ofCommand deployment.program (.token2022InitAccount 0)
    [signer payer, readonly owner, readonly mint, signer tokenAccount,
      readonly deployment.token2022, readonly Programs.system]

structure TokenTransfer where
  authority : Address
  source : Address
  destination : Address
  /-- The wallet that receives a deposit, or the vault that a withdrawal is from. -/
  wallet : Address
  mint : Address
  tokenProgram : Address
  deriving DecidableEq

def TokenTransfer.accounts (transfer : TokenTransfer) (deployment : Deployment) : List AccountRef :=
  [signer transfer.authority, writable transfer.source, writable transfer.destination,
    readonly transfer.wallet, readonly transfer.mint, readonly transfer.tokenProgram,
    readonly Programs.system, readonly deployment.associatedToken]

def tokenDeposit (deployment : Deployment) (transfer : TokenTransfer) (decimals : UInt8)
    (amount : UInt64) : Except CodecError Instruction :=
  ofCommand deployment.program (.tokenDeposit decimals amount) (transfer.accounts deployment)

def tokenWithdraw (deployment : Deployment) (transfer : TokenTransfer) (decimals : UInt8)
    (amount : UInt64) : Except CodecError Instruction :=
  ofCommand deployment.program (.tokenWithdraw decimals amount) (transfer.accounts deployment)

structure ConfigSettings where
  mints : Quad Address
  owner : Address
  admin : Address
  isAuthorized : Bool
  status : Status
  fee : UInt64
  label : String
  deriving DecidableEq, Inhabited

def initConfig (program authority config : Address) (settings : ConfigSettings) :
    Except CodecError Instruction :=
  ofCommand program
    (.initConfig settings.isAuthorized settings.status settings.fee settings.label)
    ([signer authority, writable config] ++ settings.mints.toList.map readonly ++
      [readonly settings.owner, readonly settings.admin, readonly Programs.system])

/-- Change one setting of the config; the first extra account is the new admin, if there is one. -/
def updateConfig (program authority config extra₀ extra₁ : Address) (update : ConfigUpdate) :
    Except CodecError Instruction :=
  ofCommand program (.updateConfig update)
    [signer authority, writable config, readonly extra₀, readonly extra₁]

/-- Close the config and send its lamports to the destination. -/
def closeConfig (program authority config destination : Address) : Except CodecError Instruction :=
  ofCommand program .closeConfig [signer authority, writable config, writable destination]

def configResize (program authority config programOwner : Address) (newSize : UInt64) :
    Except CodecError Instruction :=
  ofCommand program (.configResize newSize)
    [signer authority, writable config, readonly programOwner, readonly Programs.system]

structure EscrowOffer where
  mintX : Address
  mintY : Address
  decimalsX : UInt8
  amountX : UInt64
  decimalsY : UInt8
  amountY : UInt64
  id : UInt64
  deriving DecidableEq, Inhabited

/-- The accounts of an escrow beside its mints when it is opened. -/
structure EscrowOpening where
  maker : Address
  makerTokensX : Address
  escrowTokens : Address
  escrow : Address
  config : Address
  tokenProgram : Address
  deriving DecidableEq

def escrowMake (deployment : Deployment) (opening : EscrowOpening) (offer : EscrowOffer) :
    Except CodecError Instruction :=
  ofCommand deployment.program
    (.escrowMake offer.decimalsX offer.amountX offer.decimalsY offer.amountY offer.id)
    [signer opening.maker, writable opening.makerTokensX, writable opening.escrowTokens,
      writable opening.escrow, readonly offer.mintX, readonly offer.mintY,
      writable opening.config, readonly opening.tokenProgram, readonly Programs.system,
      readonly deployment.associatedToken]

/-- The accounts of an escrow when it is settled or cancelled. -/
structure EscrowSettlement where
  maker : Address
  makerTokensX : Address
  makerTokensY : Address
  escrowTokensX : Address
  escrowTokensY : Address
  mintX : Address
  mintY : Address
  escrow : Address
  config : Address
  tokenProgram : Address
  deriving DecidableEq

def EscrowSettlement.accounts (settlement : EscrowSettlement) (deployment : Deployment) :
    List AccountRef :=
  [signer settlement.maker, writable settlement.makerTokensX, writable settlement.makerTokensY,
    writable settlement.escrowTokensX, writable settlement.escrowTokensY,
    readonly settlement.mintX, readonly settlement.mintY, writable settlement.escrow,
    writable settlement.config, readonly settlement.tokenProgram, readonly Programs.system,
    readonly deployment.associatedToken]

def escrowWithdraw (deployment : Deployment) (settlement : EscrowSettlement) (id : UInt64) :
    Except CodecError Instruction :=
  ofCommand deployment.program (.escrowWithdraw id) (settlement.accounts deployment)

def escrowCancel (deployment : Deployment) (settlement : EscrowSettlement) :
    Except CodecError Instruction :=
  ofCommand deployment.program .escrowCancel (settlement.accounts deployment)

end VaultWire.Instruction
