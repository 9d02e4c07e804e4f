import VaultWire.Error

/-!
# Failures reported by the vault program

The vault program rejects an instruction with a number out of a table of its own, which has nothing to
do with the numbers of coding errors. The failures are listed in the order of their numbers.
-/

namespace VaultWire

inductive ProgramFailure where
  | invalidDiscriminator
  | notSigner
  | notWritable
  | notExecutable
  | zeroAsInput
  | decimalsValue
  | mintDataLen
  | tokAcctDataLen
  | tok22AcctDataLen
  | tokenProgram
  | systemProgram
  | ataOrOwner
  | ataOrMint
  | ataCheckFailed
  | ataOwnerInvalid
  | foreignPda
  | emptyLamport
  | emptyData
  | acctType
  | strOverMax
  | strUnderMin
  | inputDataUnderMin
  | inputDataOverMax
  | pdaNotInitialized
  | parseU64
  | tok22AcctDiscOffset
  | inputU8InvalidForStatus
  | inputU8InvalidForBool
  | u64ByteSizeInvalid
  | u32ByteSizeInvalid
  | u16ByteSizeInvalid
  | u8ByteSizeInvalid
  | vaultPda
  | configDataLength
  | functionSelector
  | configPda
  | inputStatus
  | mathOverflow
  | mathUnderflow
  | notRentExemptMint22
  | notRentExemptTokAcct22
  | notRentExemptPda
  | mintOrMintAuthority
  | mintOrTokenProgram
  | errorValue
  | pdaAuthority
  | insufficientFundNominal
  | toWallet
  | pdaDataLen
  | byteSliceSize32
  | byteSliceSize10
  | byteSliceSize6
  | atokenGPvbd
  | clockGet
  | onlyOwner
  deriving DecidableEq, Repr

namespace ProgramFailure

def all : List ProgramFailure := [
  invalidDiscriminator, notSigner, notWritable, notExecutable, zeroAsInput, decimalsValue,
  mintDataLen, tokAcctDataLen, tok22AcctDataLen, tokenProgram, systemProgram, ataOrOwner, ataOrMint,
  ataCheckFailed, ataOwnerInvalid, foreignPda, emptyLamport, emptyData, acctType, strOverMax,
  strUnderMin, inputDataUnderMin, inputDataOverMax, pdaNotInitialized, parseU64,
  tok22AcctDiscOffset, inputU8InvalidForStatus, inputU8InvalidForBool, u64ByteSizeInvalid,
  u32ByteSizeInvalid, u16ByteSizeInvalid, u8ByteSizeInvalid, vaultPda, configDataLength,
  functionSelector, configPda, inputStatus, mathOverflow, mathUnderflow, notRentExemptMint22,
  notRentExemptTokAcct22, notRentExemptPda, mintOrMintAuthority, mintOrTokenProgram, errorValue,
  pdaAuthority, insufficientFundNominal, toWallet, pdaDataLen, byteSliceSize32, byteSliceSize10,
  byteSliceSize6, atokenGPvbd, clockGet, onlyOwner]

def code (failure : ProgramFailure) : UInt32 := UInt32.ofNat failure.ctorIdx

/-- The failure with this number; the program has no others. -/
def ofCode? (code : UInt32) : Option ProgramFailure := all[code.toNat]?

@[simp] theorem ofCode?_code (failure : ProgramFailure) : ofCode? failure.code = some failure := by
  cases failure <;> rfl

/-- The name under which the program logs the failure. -/
def name : ProgramFailure → String
  | invalidDiscriminator => "InvalidDiscriminator"
  | notSigner => "NotSigner"
  | notWritable => "NotWritable"
  | notExecutable => "NotExecutable"
  | zeroAsInput => "ZeroAsInput"
  | decimalsValue => "DecimalsValue"
  | mintDataLen => "MintDataLen"
  | tokAcctDataLen => "TokAcctDataLen"
  | tok22AcctDataLen => "Tok22AcctDataLen"
  | tokenProgram => "TokenProgram"
  | systemProgram => "SystemProgram"
  | ataOrOwner => "AtaOrOwner"
  | ataOrMint => "AtaOrMint"
  | ataCheckFailed => "AtaCheckFailed"
  | ataOwnerInvalid => "AtaOwnerInvalid"
  | foreignPda => "ForeignPda"
  | emptyLamport => "EmptyLamport"
  | emptyData => "EmptyData"
  | acctType => "AcctType"
  | strOverMax => "StrOverMax"
  | strUnderMin => "StrUnderMin"
  | inputDataUnderMin => "InputDataUnderMin"
  | inputDataOverMax => "InputDataOverMax"
  | pdaNotInitialized => "PdaNotInitialized"
  | parseU64 => "ParseU64"
  | tok22AcctDiscOffset => "Tok22AcctDiscOffset"
  | inputU8InvalidForStatus => "InputU8InvalidForStatus"
  | inputU8InvalidForBool => "InputU8InvalidForBool"
  | u64ByteSizeInvalid => "U64ByteSizeInvalid"
  | u32ByteSizeInvalid => "U32ByteSizeInvalid"
  | u16ByteSizeInvalid => "U16ByteSizeInvalid"
  | u8ByteSizeInvalid => "U8ByteSizeInvalid"
  | vaultPda => "VaultPda"
  | configDataLength => "ConfigDataLength"
  | functionSelector => "FunctionSelector"
  | configPda => "ConfigPda"
  | inputStatus => "InputStatus"
  | mathOverflow => "MathOverflow"
  | mathUnderflow => "MathUnderflow"
  | notRentExemptMint22 => "NotRentExemptMint22"
  | notRentExemptTokAcct22 => "NotRentExemptTokAcct22"
  | notRentExemptPda => "NotRentExemptPda"
  | mintOrMintAuthority => "MintOrMintAuthority"
  | mintOrTokenProgram => "MintOrTokenProgram"
  | errorValue => "ErrorValue"
  | pdaAuthority => "PdaAuthority"
  | insufficientFundNominal => "InsufficientFundNominal"
  | toWallet => "ToWallet"
  | pdaDataLen => "PdaDataLen"
  | byteSliceSize32 => "ByteSliceSize32"
  | byteSliceSize10 => "ByteSliceSize10"
  | byteSliceSize6 => "ByteSliceSize6"
  | atokenGPvbd => "AtokenGPvbd"
  | clockGet => "ClockGet"
  | onlyOwner => "OnlyOwner"

def message : ProgramFailure → String
  | invalidDiscriminator => "invalid instruction discriminator"
  | notSigner => "account is not a signer"
  | notWritable => "account is not writable"
  | notExecutable => "account is not executable"
  | zeroAsInput => "zero is not a valid input"
  | decimalsValue => "decimals do not match the mint"
  | mintDataLen => "mint data length is wrong"
  | tokAcctDataLen => "token account data length is wrong"
  | tok22AcctDataLen => "Token-2022 account data length is wrong"
  | tokenProgram => "unexpected token program"
  | systemProgram => "unexpected system program"
  | ataOrOwner => "ATA does not belong to the owner"
  | ataOrMint => "ATA does not belong to the mint"
  | ataCheckFailed => "ATA check failed"
  | ataOwnerInvalid => "ATA owner is invalid"
  | foreignPda => "PDA is owned by another program"
  | emptyLamport => "account holds no lamports"
  | emptyData => "account data is empty"
  | acctType => "wrong account type"
  | strOverMax => "string is longer than allowed"
  | strUnderMin => "string is shorter than allowed"
  | inputDataUnderMin => "instruction data is too short"
  | inputDataOverMax => "instruction data is too long"
  | pdaNotInitialized => "PDA is not initialized"
  | parseU64 => "u64 argument could not be parsed"
  | tok22AcctDiscOffset => "Token-2022 account discriminator offset is wrong"
  | inputU8InvalidForStatus => "byte is not a valid status"
  | inputU8InvalidForBool => "byte is not a valid bool"
  | u64ByteSizeInvalid => "u64 argument has the wrong size"
  | u32ByteSizeInvalid => "u32 argument has the wrong size"
  | u16ByteSizeInvalid => "u16 argument has the wrong size"
  | u8ByteSizeInvalid => "u8 argument has the wrong size"
  | vaultPda => "vault PDA does not match"
  | configDataLength => "config data length is wrong"
  | functionSelector => "unknown config selector"
  | configPda => "config PDA does not match"
  | inputStatus => "status not allowed here"
  | mathOverflow => "arithmetic overflow"
  | mathUnderflow => "arithmetic underflow"
  | notRentExemptMint22 => "Token-2022 mint is not rent exempt"
  | notRentExemptTokAcct22 => "Token-2022 token account is not rent exempt"
  | notRentExemptPda => "PDA is not rent exempt"
  | mintOrMintAuthority => "mint or mint authority mismatch"
  | mintOrTokenProgram => "mint is not owned by the token program"
  | errorValue => "unrecognized error value"
  | pdaAuthority => "PDA authority mismatch"
  | insufficientFundNominal => "insufficient funds"
  | toWallet => "destination wallet mismatch"
  | pdaDataLen => "PDA data length is wrong"
  | byteSliceSize32 => "expected a 32-byte slice"
  | byteSliceSize10 => "expected a 10-byte slice"
  | byteSliceSize6 => "expected a 6-byte slice"
  | atokenGPvbd => "unexpected associated token program"
  | clockGet => "clock sysvar unavailable"
  | onlyOwner => "only the owner may do this"

end ProgramFailure

/-- What a program reports when it rejects an instruction: a number of its own, or one of the reasons
that every program shares, known by its name. -/
inductive ProgramError where
  | custom (code : UInt32)
  | builtin (name : String)
  deriving DecidableEq, Repr

/-- The failure of the vault program behind a report. -/
def ProgramError.failure? : ProgramError → Option ProgramFailure
  | custom code => ProgramFailure.ofCode? code
  | builtin _ => none

/-- A coding error as a program reports it: the number of its innermost cause. -/
def CodecError.toProgramError (e : CodecError) : ProgramError := .custom e.root.code

end VaultWire
