import VaultWire.Quad
import VaultWire.Schema.Record
import VaultWire.Command.Opcode

/-!
# Commands

A command is an operation of the vault program with its arguments. The arguments are listed as values
in the order of the operation's layout, and looked up by name in a record.
-/

namespace VaultWire

/-- The arguments of an update of the config. The program reads fixed slots; the others are zero. -/
structure ConfigUpdate where
  flags : Quad Bool
  selector : Selector
  status : Status
  words : Quad UInt32
  amounts : Quad UInt64
  label : String
  deriving DecidableEq, Inhabited

namespace ConfigUpdate

/-- The time of the update, in the first word. -/
def timestamp (update : ConfigUpdate) : UInt32 := update.words.first

def fee (update : ConfigUpdate) : UInt64 := update.amounts.first

/-- An amount of tokens, in the second amount. -/
def tokenAmount (update : ConfigUpdate) : UInt64 := update.amounts.second

def withTimestamp (update : ConfigUpdate) (time : UInt32) : ConfigUpdate :=
  { update with words := { update.words with first := time } }

def flagNames : Quad String := ⟨"flag_0", "flag_1", "flag_2", "flag_3"⟩

def wordNames : Quad String := ⟨"word_0", "word_1", "word_2", "word_3"⟩

def amountNames : Quad String := ⟨"amount_0", "amount_1", "amount_2", "amount_3"⟩

end ConfigUpdate

inductive Command where
  /-- Move lamports from the owner to the owner's vault. -/
  | deposit (amount : UInt64)
  | withdraw (amount : UInt64)
  | token2022Mint (decimals : UInt8)
  /-- Create a token account of the token program of 2022; the byte is not read. -/
  | token2022InitAccount (reserved : UInt8)
  /-- Move tokens from the authority to a wallet. -/
  | tokenDeposit (decimals : UInt8) (amount : UInt64)
  | tokenWithdraw (decimals : UInt8) (amount : UInt64)
  | initConfig (isAuthorized : Bool) (status : Status) (fee : UInt64) (label : String)
  | updateConfig (update : ConfigUpdate)
  | closeConfig
  /-- Lock an amount of one mint and ask for an amount of another. -/
  | escrowMake (decimalsX : UInt8) (amountX : UInt64) (decimalsY : UInt8) (amountY : UInt64)
      (id : UInt64)
  | escrowWithdraw (id : UInt64)
  | escrowCancel
  | configResize (newSize : UInt64)
  deriving DecidableEq

namespace Command

def opcode : Command → Opcode
  | deposit .. => .deposit
  | withdraw .. => .withdraw
  | token2022Mint .. => .token2022Mint
  | token2022InitAccount .. => .token2022InitAccount
  | tokenDeposit .. => .tokenDeposit
  | tokenWithdraw .. => .tokenWithdraw
  | initConfig .. => .initConfig
  | updateConfig .. => .updateConfig
  | closeConfig => .closeConfig
  | escrowMake .. => .escrowMake
  | escrowWithdraw .. => .escrowWithdraw
  | escrowCancel => .escrowCancel
  | configResize .. => .configResize

def arguments : Command → List FieldValue
  | deposit amount | withdraw amount => [.word amount]
  | token2022Mint decimals => [.word decimals]
  | token2022InitAccount reserved => [.word reserved]
  | tokenDeposit decimals amount | tokenWithdraw decimals amount => [.word decimals, .word amount]
  | initConfig isAuthorized status fee label =>
    [.bool isAuthorized, .enum status.symbol, .word fee, .text label]
  | updateConfig update =>
    update.flags.toList.map .bool ++
      [.enum update.selector.symbol, .enum update.status.symbol, .padding] ++
      update.words.toList.map .word ++ update.amounts.toList.map .word ++ [.text update.label]
  | closeConfig | escrowCancel => []
  | escrowMake decimalsX amountX decimalsY amountY id =>
    [.word decimalsX, .word amountX, .word decimalsY, .word amountY, .word id]
  | escrowWithdraw id => [.word id]
  | configResize newSize => [.word newSize]

/-- The command for an operation whose arguments are in a record. -/
def ofRecord (opcode : Opcode) (record : Record) : Except CodecError Command :=
  match opcode with
  | .deposit => return deposit (← record.word "amount")
  | .withdraw => return withdraw (← record.word "amount")
  | .token2022Mint => return token2022Mint (← record.word "decimals")
  | .token2022InitAccount => return token2022InitAccount (← record.word "reserved")
  | .tokenDeposit => return tokenDeposit (← record.word "decimals") (← record.word "amount")
  | .tokenWithdraw => return tokenWithdraw (← record.word "decimals") (← record.word "amount")
  | .initConfig => do
    let isAuthorized ← record.bool "is_authorized"
    let status ← Status.ofSymbol (← record.symbol "status")
    let fee ← record.word "fee"
    let label ← record.text "label"
    return initConfig isAuthorized status fee label
  | .updateConfig => do
    let selector ← Selector.ofSymbol (← record.symbol "selector")
    let status ← Status.ofSymbol (← record.symbol "status")
    let label ← record.text "label"
    let flags ← ConfigUpdate.flagNames.traverse record.bool
    let words ← ConfigUpdate.wordNames.traverse record.word
    let amounts ← ConfigUpdate.amountNames.traverse record.word
    return updateConfig { flags, selector, status, words, amounts, label }
  | .closeConfig => return closeConfig
  | .escrowMake => do
    let decimalsX ← record.word "decimals_x"
    let amountX ← record.word "amount_x"
    let decimalsY ← record.word "decimals_y"
    let amountY ← record.word "amount_y"
    let id ← record.word "id"
    return escrowMake decimalsX amountX decimalsY amountY id
  | .escrowWithdraw => return escrowWithdraw (← record.word "id")
  | .escrowCancel => return escrowCancel
  | .configResize => return configResize (← record.word "new_size")

end Command

end VaultWire
