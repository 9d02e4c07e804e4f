import VaultWire.Client.Operation

/-!
# A ledger in memory

A ledger that keeps its accounts in a list, accepts every instruction without carrying it out, and
fails on demand: for submitting, fetching and reading the clock there is a place each for the failure
that it then answers with.
-/

namespace VaultWire

inductive MemoryFailure where
  | offline
  /-- A program rejected the instruction with this number. -/
  | rejected (code : UInt32)
  deriving DecidableEq, Repr

def MemoryFailure.message : MemoryFailure → String
  | offline => "ledger offline"
  | rejected code => s!"instruction rejected with custom code {code}"

structure MemoryLedger where
  /-- The data of the accounts; the first entry for an address counts. -/
  accounts : List (Address × Bytes)
  now : UInt32
  /-- The accepted instructions, oldest first. -/
  accepted : List Instruction
  submitFailure : Option MemoryFailure
  fetchFailure : Option MemoryFailure
  clockFailure : Option MemoryFailure
  deriving DecidableEq

namespace MemoryLedger

def empty : MemoryLedger := ⟨[], 0, [], none, none, none⟩

def submit (instruction : Instruction) (state : MemoryLedger) :
    Except MemoryFailure Unit × MemoryLedger :=
  match state.submitFailure with
  | some failure => (.error failure, state)
  | none => (.ok (), { state with accepted := state.accepted ++ [instruction] })

def fetch (address : Address) (state : MemoryLedger) : Except MemoryFailure (Option Bytes) :=
  match state.fetchFailure with
  | some failure => .error failure
  | none => .ok (state.accounts.lookup address)

def clock (state : MemoryLedger) : Except MemoryFailure UInt32 :=
  match state.clockFailure with
  | some failure => .error failure
  | none => .ok state.now

def customCode : MemoryFailure → Option UInt32
  | .offline => none
  | .rejected code => some code

/-- The ledger for clients; `telling` says whether it tells the numbers of rejections. -/
def ledger (telling : Bool) : Ledger MemoryLedger MemoryFailure where
  submit := submit
  fetch := fetch
  clock := clock
  customCode failure := if telling then customCode failure else none

def client (telling : Bool) (deployment : Deployment) : Client MemoryLedger MemoryFailure :=
  ⟨ledger telling, deployment⟩

inductive Control where
  /-- Give an account this data, or remove it. -/
  | setAccount (address : Address) (data : Option Bytes)
  | setNow (time : UInt32)
  | setSubmitFailure (failure : Option MemoryFailure)
  | setFetchFailure (failure : Option MemoryFailure)
  | setClockFailure (failure : Option MemoryFailure)
  deriving DecidableEq

def Control.apply (state : MemoryLedger) : Control → MemoryLedger
  | setAccount address data =>
    let others := state.accounts.filter (·.1 != address)
    { state with accounts := (data.map fun bytes => (address, bytes)).toList ++ others }
  | setNow time => { state with now := time }
  | setSubmitFailure failure => { state with submitFailure := failure }
  | setFetchFailure failure => { state with fetchFailure := failure }
  | setClockFailure failure => { state with clockFailure := failure }

/-- One step of a history: a change from outside, or an operation of a client. -/
inductive Step where
  | control (change : Control)
  | operation (operation : Operation)
  deriving DecidableEq

def Step.run (client : Client MemoryLedger MemoryFailure) (state : MemoryLedger) :
    Step → Outcome MemoryLedger MemoryFailure Answer
  | control change => .ofResult (.ok .done) (change.apply state)
  | operation op => op.run client state

def run (client : Client MemoryLedger MemoryFailure) :
    MemoryLedger → List Step → List (Outcome MemoryLedger MemoryFailure Answer)
  | _, [] => []
  | state, step :: rest =>
    let outcome := step.run client state
    outcome :: run client outcome.state rest

end MemoryLedger

end VaultWire
