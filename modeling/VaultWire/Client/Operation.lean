import VaultWire.Client.Basic

/-!
# Client operations as data

The operations of a client as one type, so that runs of them can be listed and reasoned about, with
one type for all their answers.
-/

namespace VaultWire

inductive Operation where
  | submit (submission : Submission)
  | configAddress
  | fetchConfig
  | fetchEscrow (maker : Address) (id : UInt64)
  | fetchRecord (address : Address) (schema : Schema)
  deriving DecidableEq

inductive Answer where
  /-- The operation was carried out, and that is all. -/
  | done
  | address (value : Address)
  | config (value : Config)
  | escrow (value : Escrow)
  | record (value : Record)
  deriving DecidableEq

namespace Operation

variable {σ ε : Type}

def run (client : Client σ ε) (state : σ) : Operation → Outcome σ ε Answer
  | submit submission => (client.submit submission state).map (·.elim .done .address)
  | configAddress =>
    .ofResult ((client.deployment.configAddress.mapError .codec).map .address) state
  | fetchConfig => (client.fetchConfig state).map .config
  | fetchEscrow maker id => (client.fetchEscrow maker id state).map .escrow
  | fetchRecord address schema => (client.fetchRecord address schema state).map .record

end Operation

end VaultWire
