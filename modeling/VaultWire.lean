import VaultWire.Schema.Encode
import VaultWire.Schema.Decode
import VaultWire.Account.Config
import VaultWire.Account.Escrow
import VaultWire.Command.Payload
import VaultWire.Instruction.Build
import VaultWire.Address.Base58
import VaultWire.Address.Purpose
import VaultWire.ProgramFailure
import VaultWire.Client.Basic
import VaultWire.Client.Operation
import VaultWire.Client.Memory
import VaultWire.Proofs.EnumTable
import VaultWire.Proofs.LittleEndian
import VaultWire.Proofs.Integer
import VaultWire.Proofs.Word
import VaultWire.Proofs.Text
import VaultWire.Proofs.Text.Stored
import VaultWire.Proofs.Trap
import VaultWire.Proofs.Text.Vector
import VaultWire.Proofs.Field
import VaultWire.Proofs.Schema
import VaultWire.Proofs.Accepts
import VaultWire.Proofs.Schema.RoundTrip
import VaultWire.Proofs.Schema.Written
import VaultWire.Proofs.Schema.Refusal
import VaultWire.Proofs.Window
import VaultWire.Proofs.Schema.Places
import VaultWire.Proofs.Schema.Legal
import VaultWire.Proofs.Schema.Rejection
import VaultWire.Proofs.Schema.Bounds
import VaultWire.Proofs.Command.Arguments
import VaultWire.Proofs.Command.RoundTrip
import VaultWire.Proofs.Command.Grammar
import VaultWire.Proofs.Command.Wire
import VaultWire.Proofs.Command.Refusal
import VaultWire.Proofs.Account.Packed
import VaultWire.Proofs.Account.Lookup
import VaultWire.Proofs.Account.RoundTrip
import VaultWire.Proofs.Account.FirstEntries
import VaultWire.Proofs.Account.Layout
import VaultWire.Proofs.Account.Edit
import VaultWire.Proofs.Account.PackInto
import VaultWire.Proofs.WrongLength
import VaultWire.Proofs.Address.Derivation
import VaultWire.Proofs.Client.Recording
import VaultWire.Proofs.Client.TokenAccounts
import VaultWire.Proofs.Address.BumpSearch
import VaultWire.Proofs.Address.Separation
import VaultWire.Proofs.Client.History
import VaultWire.Proofs.Client.DerivedAccounts
import VaultWire.Proofs.Client.SignedCommand
import VaultWire.Proofs.Client.TypedReads
import VaultWire.Proofs.Client.MissingAddress
import VaultWire.Proofs.Client.Failures
