import VaultWire.Address.Base58

/-!
# Programs

The programs that instructions are sent to or mention. Those of the ledger itself are fixed; a
deployment says which set of programs a client talks to.
-/

namespace VaultWire

namespace Programs

def vault : Address :=
  .ofNat 0x5c8ff6ca29f1c4dbfdf186ecf51f99332a5a612007d454c7e589763c1ec6b023

def token : Address :=
  .ofNat 0x06ddf6e1d765a193d9cbe146ceeb79ac1cb485ed5f5b37913a8cf5857eff00a9

def token2022 : Address :=
  .ofNat 0x06ddf6e1ee758fde18425dbce46ccddab61afc4d83b90d27febdf928d8a18bfc

def associatedToken : Address :=
  .ofNat 0x8c97258f4e2489f1bb3d1029148e0d830b5a1399daff1084048e7bd8dbe9f859

def system : Address := .zero

example :
    vault.base58 = "7EKqBVYSCmJbt2T8tGSmwzNKnpL29RqcJcyUr9aEEr6e" ∧
    token.base58 = "TokenkegQfeZyiNwAJbNbGKPFXCWuBvf9Ss623VQ5DA" ∧
    token2022.base58 = "TokenzQdBNbLqP5VEhdkAS6EPFLC1PHnBqCXEpPxuEb" ∧
    associatedToken.base58 = "ATokenGPvbdGVxr1b2hvZbsiqW5xWH25efTNsLJA8knL" ∧
    system.base58 = "11111111111111111111111111111111" := by
  decide +kernel

end Programs

structure Deployment where
  program : Address
  token : Address
  token2022 : Address
  associatedToken : Address
  system : Address
  deriving DecidableEq

namespace Deployment

def standard : Deployment where
  program := Programs.vault
  token := Programs.token
  token2022 := Programs.token2022
  associatedToken := Programs.associatedToken
  system := Programs.system

def ofProgram (program : Address) : Deployment := { standard with program }

def isTokenProgram (deployment : Deployment) (address : Address) : Bool :=
  address == deployment.token || address == deployment.token2022

end Deployment

end VaultWire
