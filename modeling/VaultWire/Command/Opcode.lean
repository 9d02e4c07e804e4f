import VaultWire.Account.Status
import VaultWire.Command.Selector
import VaultWire.Schema.Basic
import VaultWire.Text.Fixed

/-!
# The operations of the vault program

Thirteen operations, each with the first byte of its payloads and the layout of the bytes after it.
The bytes are not contiguous: 3, 7 to 11 and 16 name no operation.
-/

namespace VaultWire

inductive Opcode where
  | deposit
  | withdraw
  | token2022Mint
  | token2022InitAccount
  | tokenDeposit
  | tokenWithdraw
  | initConfig
  | updateConfig
  | closeConfig
  | escrowMake
  | escrowWithdraw
  | escrowCancel
  | configResize
  deriving DecidableEq, Repr

namespace Opcode

def all : List Opcode :=
  [deposit, withdraw, token2022Mint, token2022InitAccount, tokenDeposit, tokenWithdraw, initConfig,
    updateConfig, closeConfig, escrowMake, escrowWithdraw, escrowCancel, configResize]

/-- The first byte of a payload. -/
def byte : Opcode → UInt8
  | deposit => 0
  | withdraw => 1
  | token2022Mint => 2
  | token2022InitAccount => 4
  | tokenDeposit => 5
  | tokenWithdraw => 6
  | initConfig => 12
  | updateConfig => 13
  | closeConfig => 14
  | escrowMake => 15
  | escrowWithdraw => 17
  | escrowCancel => 18
  | configResize => 19

def ofByte? (byte : UInt8) : Option Opcode := all.find? (·.byte == byte)

@[simp] theorem ofByte?_byte (opcode : Opcode) : ofByte? opcode.byte = some opcode := by
  cases opcode <;> rfl

def name : Opcode → String
  | deposit => "Deposit"
  | withdraw => "Withdraw"
  | token2022Mint => "Token2022Mint"
  | token2022InitAccount => "Token2022InitAccount"
  | tokenDeposit => "TokenDeposit"
  | tokenWithdraw => "TokenWithdraw"
  | initConfig => "InitConfig"
  | updateConfig => "UpdateConfig"
  | closeConfig => "CloseConfig"
  | escrowMake => "EscrowMake"
  | escrowWithdraw => "EscrowWithdraw"
  | escrowCancel => "EscrowCancel"
  | configResize => "ConfigResize"

def schema : Opcode → Schema
  | deposit | withdraw => ⟨"amount", [⟨"amount", .uint 8⟩]⟩
  | token2022Mint => ⟨"token_2022_mint", [⟨"decimals", .uint 1⟩]⟩
  | token2022InitAccount => ⟨"token_2022_init_account", [⟨"reserved", .uint 1⟩]⟩
  | tokenDeposit | tokenWithdraw =>
    ⟨"token_amount", [⟨"decimals", .uint 1⟩, ⟨"amount", .uint 8⟩]⟩
  | initConfig =>
    ⟨"init_config", [
      ⟨"is_authorized", .bool⟩,
      ⟨"status", .enum Status.table⟩,
      ⟨"fee", .uint 8⟩,
      ⟨"label", .text Text.labelWidth⟩]⟩
  | updateConfig =>
    ⟨"update_config", [
      ⟨"flag_0", .bool⟩,
      ⟨"flag_1", .bool⟩,
      ⟨"flag_2", .bool⟩,
      ⟨"flag_3", .bool⟩,
      ⟨"selector", .enum Selector.table⟩,
      ⟨"status", .enum Status.table⟩,
      ⟨"pad", .padding 2⟩,
      ⟨"word_0", .uint 4⟩,
      ⟨"word_1", .uint 4⟩,
      ⟨"word_2", .uint 4⟩,
      ⟨"word_3", .uint 4⟩,
      ⟨"amount_0", .uint 8⟩,
      ⟨"amount_1", .uint 8⟩,
      ⟨"amount_2", .uint 8⟩,
      ⟨"amount_3", .uint 8⟩,
      ⟨"label", .text Text.labelWidth⟩]⟩
  | closeConfig | escrowCancel => ⟨"no_args", []⟩
  | escrowMake =>
    ⟨"escrow_make", [
      ⟨"decimals_x", .uint 1⟩,
      ⟨"amount_x", .uint 8⟩,
      ⟨"decimals_y", .uint 1⟩,
      ⟨"amount_y", .uint 8⟩,
      ⟨"id", .uint 8⟩]⟩
  | escrowWithdraw => ⟨"escrow_id", [⟨"id", .uint 8⟩]⟩
  | configResize => ⟨"config_resize", [⟨"new_size", .uint 8⟩]⟩

def schemaOf? (byte : UInt8) : Option Schema := (ofByte? byte).map schema

end Opcode

end VaultWire
