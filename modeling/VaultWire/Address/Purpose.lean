import VaultWire.Address.Derivation
import VaultWire.Address.Deployment

/-!
# The derived accounts of the vault program

Four kinds of accounts are derived: the one config, a vault for each owner, an escrow for each maker
and number, and the token account of a holder for a mint. Each has its own seeds and the program
that derives it.
-/

namespace VaultWire

inductive Purpose where
  | config (program : Address)
  | vault (program owner : Address)
  | escrow (program maker : Address) (id : UInt64)
  | associatedToken (owner mint tokenProgram : Address)
  deriving DecidableEq

namespace Purpose

/-- The bytes `proj_config`. -/
def configSeed : Bytes := [0x70, 0x72, 0x6f, 0x6a, 0x5f, 0x63, 0x6f, 0x6e, 0x66, 0x69, 0x67]

/-- The bytes `vault`. -/
def vaultSeed : Bytes := [0x76, 0x61, 0x75, 0x6c, 0x74]

/-- The bytes `escrow`. -/
def escrowSeed : Bytes := [0x65, 0x73, 0x63, 0x72, 0x6f, 0x77]

def seeds : Purpose → List Bytes
  | config _ => [configSeed]
  | vault _ owner => [vaultSeed, owner.bytes]
  | escrow _ maker id => [escrowSeed, maker.bytes, LittleEndian.encode 8 id.toNat]
  | associatedToken owner mint tokenProgram => [owner.bytes, tokenProgram.bytes, mint.bytes]

/-- The program that derives the account. Token accounts belong to the known program of associated
token accounts in every deployment. -/
def deriver : Purpose → Address
  | config program => program
  | vault program _ => program
  | escrow program _ _ => program
  | associatedToken .. => Programs.associatedToken

def find (purpose : Purpose) : Except CodecError (Address × UInt8) :=
  Scheme.standard.find purpose.seeds purpose.deriver

def address (purpose : Purpose) : Except CodecError Address := (·.1) <$> purpose.find

end Purpose

end VaultWire
