import VaultWire.Error
import VaultWire.Hash.Sha256
import VaultWire.Address.Curve

/-!
# Derived addresses

A program derives addresses from seeds: the seeds, a bump byte, the program and a marker are hashed
together, and the hash is an address for the program to use if it is off the curve, where no private
key exists. The bump is searched downwards from 255, so the address found for given seeds is the one
with the highest usable bump.

The hash and the test for the curve are parameters; `Scheme.standard` is the pair that the ledger
uses.
-/

namespace VaultWire

structure Scheme where
  hash : Bytes → Address
  onCurve : Address → Bool

namespace Scheme

def standard : Scheme where
  hash message := ⟨Sha256.hash message, Sha256.length_hash message⟩
  onCurve := Address.isOnCurve

end Scheme

namespace Seeds

/-- The highest number of seeds, the bump counted with them. -/
def maxCount : Nat := 16

def maxLength : Nat := 32

/-- The bytes `ProgramDerivedAddress`, which close every hashed message. -/
def marker : Bytes :=
  [0x50, 0x72, 0x6f, 0x67, 0x72, 0x61, 0x6d, 0x44, 0x65, 0x72, 0x69, 0x76, 0x65, 0x64,
    0x41, 0x64, 0x64, 0x72, 0x65, 0x73, 0x73]

/-- Every seed has to be short enough; `index` is the index of the first one. -/
def checkLengths (index : Nat) : List Bytes → Except CodecError Unit
  | [] => .ok ()
  | seed :: rest =>
    if maxLength < seed.length then .error (.seedTooLong index seed.length maxLength)
    else checkLengths (index + 1) rest

/-- There must be room for the bump beside the seeds, and every seed has to be short enough. -/
def check (seeds : List Bytes) : Except CodecError Unit :=
  if maxCount ≤ seeds.length then .error (.tooManySeeds seeds.length (maxCount - 1))
  else checkLengths 0 seeds

def message (seeds : List Bytes) (bump : UInt8) (program : Address) : Bytes :=
  seeds.flatten ++ [bump] ++ program.bytes ++ marker

end Seeds

namespace Scheme

def bumps : List UInt8 := (List.range 256).reverse.map UInt8.ofNat

variable (scheme : Scheme)

/-- The address for one bump, on the curve or off it. -/
def candidate (seeds : List Bytes) (bump : UInt8) (program : Address) : Address :=
  scheme.hash (Seeds.message seeds bump program)

def create (seeds : List Bytes) (bump : UInt8) (program : Address) :
    Except CodecError Address := do
  Seeds.check seeds
  let address := scheme.candidate seeds bump program
  if scheme.onCurve address then throw (.addressOnCurve bump)
  return address

/-- The first address off the curve among the given bumps. -/
def search (seeds : List Bytes) (program : Address) : List UInt8 → Option (Address × UInt8)
  | [] => none
  | bump :: rest =>
    let address := scheme.candidate seeds bump program
    if scheme.onCurve address then search seeds program rest else some (address, bump)

/-- The address with the highest usable bump, and that bump. -/
def find (seeds : List Bytes) (program : Address) : Except CodecError (Address × UInt8) := do
  Seeds.check seeds
  match scheme.search seeds program bumps with
  | some found => return found
  | none => throw .noValidAddress

end Scheme

end VaultWire
