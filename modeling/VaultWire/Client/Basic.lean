import VaultWire.Account.Config
import VaultWire.Account.Escrow
import VaultWire.Client.Ledger
import VaultWire.Client.Submission

/-!
# The client

A client submits commands to the vault program of a deployment and reads accounts back. It never
signs, repeats or waits: each operation asks the ledger at most once, beside the clock.
-/

namespace VaultWire

structure Client (σ ε : Type) where
  ledger : Ledger σ ε
  deployment : Deployment

namespace Client

variable {σ ε : Type} (client : Client σ ε)

/-- A failed submission: a number out of the program's table is told as the program's failure, and
all else as the ledger's. -/
def submitError (failure : ε) : ClientError ε :=
  match (client.ledger.customCode failure).bind ProgramFailure.ofCode? with
  | some known => .program known
  | none => .ledger failure

def send (request : Request) (state : σ) : Outcome σ ε (Option Address) :=
  let instruction := request.instruction
  let log := [.submitting (instruction.data.headD 0) instruction.program]
  match client.ledger.submit instruction state with
  | (.ok (), after) => ⟨.ok request.answer, after, log⟩
  | (.error failure, after) => ⟨.error (client.submitError failure), after, log⟩

def submit (submission : Submission) (state : σ) : Outcome σ ε (Option Address) :=
  match submission.stamp (client.ledger.clock state) with
  | .error failure => .ofResult (.error (.ledger failure)) state
  | .ok stamped =>
    match stamped.request client.deployment with
    | .error cause => .ofResult (.error (.codec cause)) state
    | .ok request => client.send request state

def fetch (address : Address) (state : σ) : Outcome σ ε Bytes :=
  let result :=
    match client.ledger.fetch address state with
    | .error failure => .error (.ledger failure)
    | .ok none => .error (.accountNotFound address)
    | .ok (some bytes) => .ok bytes
  ⟨result, state, [.fetching address]⟩

/-- The data of an account whose address may fail to exist. -/
def fetchAt (address : Except CodecError Address) (state : σ) : Outcome σ ε Bytes :=
  match address with
  | .error cause => .ofResult (.error (.codec cause)) state
  | .ok address => client.fetch address state

def fetchConfig (state : σ) : Outcome σ ε Config :=
  (client.fetchAt client.deployment.configAddress state).andThen Packed.unpack

def fetchEscrow (maker : Address) (id : UInt64) (state : σ) : Outcome σ ε Escrow :=
  (client.fetchAt (client.deployment.escrowAddress maker id) state).andThen Packed.unpack

def fetchRecord (address : Address) (schema : Schema) (state : σ) : Outcome σ ε Record :=
  (client.fetch address state).andThen schema.decode

end Client

end VaultWire
