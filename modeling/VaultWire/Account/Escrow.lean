import VaultWire.Account.Packed

/-!
# The escrow account

An open swap of tokens in 105 bytes: the maker, the mint the maker has locked, the mint the maker asks
for and how much of it, and the bump of the escrow's own address.
-/

namespace VaultWire

/-- An open swap of tokens. -/
structure Escrow where
  maker : Address
  mintMaker : Address
  mintTaker : Address
  /-- How much of `mintTaker` the maker asks for. -/
  amount : UInt64
  bump : UInt8
  deriving DecidableEq, Inhabited

namespace Escrow

def schema : Schema where
  name := "escrow"
  fields := [
    ⟨"maker", .address⟩,
    ⟨"mint_maker", .address⟩,
    ⟨"mint_taker", .address⟩,
    ⟨"amount", .uint 8⟩,
    ⟨"bump", .uint 1⟩]

example : schema.width = 105 := by decide

/-- The escrow that a record describes; the first field that is missing or unfit is reported. -/
def ofRecord (record : Record) : Except CodecError Escrow := do
  let maker ← record.address "maker"
  let mintMaker ← record.address "mint_maker"
  let mintTaker ← record.address "mint_taker"
  let amount ← record.word "amount"
  let bump ← record.word "bump"
  return { maker, mintMaker, mintTaker, amount, bump }

def values (escrow : Escrow) : List FieldValue := [
  .address escrow.maker,
  .address escrow.mintMaker,
  .address escrow.mintTaker,
  .word escrow.amount,
  .word escrow.bump]

instance : Packed Escrow where
  schema := schema
  ofRecord := ofRecord
  values := values

end Escrow

end VaultWire
