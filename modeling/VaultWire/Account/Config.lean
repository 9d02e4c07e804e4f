import VaultWire.Quad
import VaultWire.Account.Packed
import VaultWire.Account.Status

/-!
# The config account

The settings and balances of a vault program in 287 bytes: four mints, three addresses, a label,
three amounts, a time, a flag, a status and the bump of the config's own address.
-/

namespace VaultWire

structure Config where
  mints : Quad Address
  authority : Address
  owner : Address
  admin : Address
  label : String
  fee : UInt64
  solBalance : UInt64
  tokenBalance : UInt64
  /-- Seconds since 1970. -/
  updatedAt : UInt32
  isAuthorized : Bool
  status : Status
  /-- The bump of the config's own address. -/
  bump : UInt8
  deriving DecidableEq, Inhabited

namespace Config

def mintNames : Quad String := ⟨"mint_0", "mint_1", "mint_2", "mint_3"⟩

def schema : Schema where
  name := "config"
  fields := [
    ⟨"mint_0", .address⟩,
    ⟨"mint_1", .address⟩,
    ⟨"mint_2", .address⟩,
    ⟨"mint_3", .address⟩,
    ⟨"authority", .address⟩,
    ⟨"owner", .address⟩,
    ⟨"admin", .address⟩,
    ⟨"label", .text Text.labelWidth⟩,
    ⟨"fee", .uint 8⟩,
    ⟨"sol_balance", .uint 8⟩,
    ⟨"token_balance", .uint 8⟩,
    ⟨"updated_at", .uint 4⟩,
    ⟨"is_authorized", .bool⟩,
    ⟨"status", .enum Status.table⟩,
    ⟨"bump", .uint 1⟩]

example : schema.width = 287 := by decide

/-- The config that a record describes; the first field that is missing or unfit is reported. -/
def ofRecord (record : Record) : Except CodecError Config := do
  let mints ← mintNames.traverse record.address
  let authority ← record.address "authority"
  let owner ← record.address "owner"
  let admin ← record.address "admin"
  let label ← record.text "label"
  let fee ← record.word "fee"
  let solBalance ← record.word "sol_balance"
  let tokenBalance ← record.word "token_balance"
  let updatedAt ← record.word "updated_at"
  let isAuthorized ← record.bool "is_authorized"
  let status ← Status.ofSymbol (← record.symbol "status")
  let bump ← record.word "bump"
  return { mints, authority, owner, admin, label, fee, solBalance, tokenBalance, updatedAt,
           isAuthorized, status, bump }

def values (config : Config) : List FieldValue :=
  config.mints.toList.map .address ++ [
    .address config.authority,
    .address config.owner,
    .address config.admin,
    .text config.label,
    .word config.fee,
    .word config.solBalance,
    .word config.tokenBalance,
    .word config.updatedAt,
    .bool config.isAuthorized,
    .enum config.status.symbol,
    .word config.bump]

instance : Packed Config where
  schema := schema
  ofRecord := ofRecord
  values := values

end Config

end VaultWire
