import VaultWire.Client.Memory
import VaultWire.Proofs.Client.Recording

/-!
# What a history leaves behind

Over a ledger in memory a client can do one thing to the ledger: have instructions accepted. A
submission that is answered without an error adds its one instruction at the end, and every other
operation leaves the ledger as it is. So what a history has had accepted is the list of its answered
submissions in order, and what is read does not depend on the operations before.
-/

namespace VaultWire

namespace Operation

/-- Whether the operation asks the ledger for nothing but data. -/
def reads : Operation → Bool
  | submit _ => false
  | _ => true

variable {σ ε : Type} {client : Client σ ε} {op : Operation}

theorem reads_or_submits (op : Operation) :
    op.reads = true ∨ ∃ submission, op = .submit submission := by
  cases op
  case submit submission => exact .inr ⟨submission, rfl⟩
  all_goals exact .inl rfl

theorem result_run_submit (client : Client σ ε) (state : σ) (submission : Submission) :
    ((submit submission).run client state).result =
      (client.submit submission state).result.map (·.elim .done .address) := rfl

/-- A read depends on the ledger only through what can be fetched, and leaves it alone. -/
theorem run_congr_of_reads (client : Client σ ε) (state other : σ)
    (hfetch : ∀ address, client.ledger.fetch address state = client.ledger.fetch address other)
    (h : op.reads = true) :
    op.run client other = { op.run client state with state := other } := by
  have hat (address : Except CodecError Address) :
      client.fetchAt address other = { client.fetchAt address state with state := other } := by
    cases address with
    | error cause => rfl
    | ok address => rw [Client.fetchAt, Client.fetchAt, Client.fetch, Client.fetch, hfetch]
  -- The addresses are kept as variables, for to compare their searches would be to run them.
  have hread {α : Type} (read : Bytes → Except CodecError α) (answer : α → Answer)
      (address : Except CodecError Address) :
      ((client.fetchAt address other).andThen read).map answer =
        { ((client.fetchAt address state).andThen read).map answer with state := other } := by
    rw [hat]
    rfl
  have htold (result : Except (ClientError ε) Answer) :
      Outcome.ofResult result other = { Outcome.ofResult result state with state := other } := rfl
  cases op with
  | submit submission => cases h
  | configAddress => exact htold _
  | fetchConfig => exact hread Packed.unpack .config _
  | fetchEscrow maker id => exact hread Packed.unpack .escrow _
  | fetchRecord address schema => exact hread schema.decode .record (.ok address)

theorem state_run_of_reads {state : σ} (h : op.reads = true) :
    (op.run client state).state = state := by
  rw [run_congr_of_reads client state state (fun _ => rfl) h]

/-- The instructions of the operation that were handed to the ledger without an error. -/
def accepted (client : Client σ ε) (state : σ) : Operation → List Instruction
  | submit submission =>
    match (client.submit submission state).result with
    | .ok _ => client.submitted submission state
    | .error _ => []
  | _ => []

theorem accepted_of_reads {state : σ} (h : op.reads = true) : op.accepted client state = [] := by
  cases op
  case submit submission => cases h
  all_goals rfl

end Operation

namespace MemoryLedger

/-- The state in which these instructions have been accepted as well and all else is the same. -/
def accept (state : MemoryLedger) (instructions : List Instruction) : MemoryLedger :=
  { state with accepted := state.accepted ++ instructions }

@[simp] theorem accept_nil (state : MemoryLedger) : state.accept [] = state := by
  rw [accept, List.append_nil]

@[simp] theorem accept_accept (state : MemoryLedger) (front back : List Instruction) :
    (state.accept front).accept back = state.accept (front ++ back) := by
  simp only [accept, List.append_assoc]

theorem accepted_apply (state : MemoryLedger) (change : Control) :
    (change.apply state).accepted = state.accepted := by
  cases change <;> rfl

def Step.accepted (client : Client MemoryLedger MemoryFailure) (state : MemoryLedger) :
    Step → List Instruction
  | control _ => []
  | operation op => op.accepted client state

/-- The instructions of the submissions of a history that were answered without an error, oldest
first. -/
def acceptedIn (client : Client MemoryLedger MemoryFailure) :
    MemoryLedger → List Step → List Instruction
  | _, [] => []
  | state, step :: rest =>
    step.accepted client state ++ acceptedIn client (step.run client state).state rest

/-- The state that a history ends in. -/
def after (client : Client MemoryLedger MemoryFailure) (state : MemoryLedger) (steps : List Step) :
    MemoryLedger :=
  ((run client state steps).getLast?.map (·.state)).getD state

theorem after_cons (client : Client MemoryLedger MemoryFailure) (state : MemoryLedger)
    (step : Step) (rest : List Step) :
    after client state (step :: rest) = after client (step.run client state).state rest := by
  rw [after, after, run, List.getLast?_cons]
  cases (run client (step.run client state).state rest).getLast? <;> rfl

variable {telling : Bool} {deployment : Deployment} {state : MemoryLedger}

theorem submit_of_failure {failure : MemoryFailure} (h : state.submitFailure = some failure)
    (instruction : Instruction) : submit instruction state = (.error failure, state) := by
  rw [submit, h]

theorem submit_of_none (h : state.submitFailure = none) (instruction : Instruction) :
    submit instruction state = (.ok (), state.accept [instruction]) := by
  unfold submit
  split
  case h_1 failure hsome =>
    rw [h] at hsome
    cases hsome
  case h_2 => rfl

/-- The ledger accepts what is sent unless its place for failures is filled. -/
theorem send_cases (request : Request) :
    ((∃ failure, ((client telling deployment).send request state).result = .error failure) ∧
      ((client telling deployment).send request state).state = state) ∨
    ((client telling deployment).send request state).result = .ok request.answer ∧
      ((client telling deployment).send request state).state =
        state.accept [request.instruction] := by
  have hledger : (client telling deployment).ledger.submit request.instruction state =
      submit request.instruction state := rfl
  rw [Client.send, hledger]
  cases hfailure : state.submitFailure with
  | some failure =>
      rw [submit_of_failure hfailure]
      exact .inl ⟨⟨_, rfl⟩, rfl⟩
  | none =>
      rw [submit_of_none hfailure]
      exact .inr ⟨rfl, rfl⟩

/-- An answered submission adds its instruction, and a failed one leaves the ledger as it was. -/
theorem submit_memory_cases (telling : Bool) (deployment : Deployment) (state : MemoryLedger)
    (submission : Submission) :
    ((∃ failure, ((client telling deployment).submit submission state).result = .error failure) ∧
      ((client telling deployment).submit submission state).state = state) ∨
    ∃ answer instruction,
      ((client telling deployment).submit submission state).result = .ok answer ∧
      (client telling deployment).submitted submission state = [instruction] ∧
      ((client telling deployment).submit submission state).state = state.accept [instruction] := by
  rcases (client telling deployment).submit_cases submission state with
    ⟨-, ⟨failure, hsubmit⟩, -⟩ | ⟨stamped, request, -, -, hsubmit, hsubmitted⟩
  · rw [hsubmit]
    exact .inl ⟨⟨failure, rfl⟩, rfl⟩
  · rw [hsubmit, hsubmitted]
    rcases send_cases request with hrejected | ⟨hanswer, hstate⟩
    · exact .inl hrejected
    · exact .inr ⟨request.answer, request.instruction, hanswer, rfl, hstate⟩

theorem state_run (op : Operation) :
    (op.run (client telling deployment) state).state =
      state.accept (op.accepted (client telling deployment) state) := by
  rcases op.reads_or_submits with hreads | ⟨submission, rfl⟩
  · rw [Operation.state_run_of_reads hreads, Operation.accepted_of_reads hreads, accept_nil]
  · change ((client telling deployment).submit submission state).state = _
    rw [Operation.accepted]
    rcases submit_memory_cases telling deployment state submission with
      ⟨⟨failure, hfailed⟩, hstate⟩ | ⟨answer, instruction, hanswer, hsubmitted, hstate⟩
    · rw [hfailed, hstate, accept_nil]
    · rw [hanswer, hstate, hsubmitted]

theorem accepted_state_run (step : Step) :
    (step.run (client telling deployment) state).state.accepted =
      state.accepted ++ step.accepted (client telling deployment) state := by
  cases step with
  | control change =>
      rw [Step.accepted, List.append_nil]
      exact accepted_apply state change
  | operation op => exact congrArg MemoryLedger.accepted (state_run op)

theorem accepted_after (steps : List Step) :
    (after (client telling deployment) state steps).accepted =
      state.accepted ++ acceptedIn (client telling deployment) state steps := by
  induction steps generalizing state with
  | nil => exact (List.append_nil _).symm
  | cons step rest ih => rw [after_cons, ih, accepted_state_run, List.append_assoc, acceptedIn]

theorem after_operations (operations : List Operation) :
    after (client telling deployment) state (operations.map .operation) =
      state.accept (acceptedIn (client telling deployment) state (operations.map .operation)) := by
  induction operations generalizing state with
  | nil => exact (accept_nil state).symm
  | cons op rest ih =>
      have hstep : ((Step.operation op).run (client telling deployment) state).state =
          state.accept (op.accepted (client telling deployment) state) := state_run op
      rw [List.map_cons, after_cons, ih, acceptedIn, hstep, accept_accept]
      rfl

/-- One operation has at most one instruction accepted, and exactly one if it is a submission that
is answered; nothing else of the ledger changes. So a history leaves the instructions of its
answered submissions, whatever was changed from outside meanwhile, and operations do not change what
is read after them. -/
theorem accepted_of_history (telling : Bool) (deployment : Deployment) :
    (∀ state submission,
      (∀ answer, ((Operation.submit submission).run (client telling deployment) state).result =
          .ok answer →
        ∃ instruction, (client telling deployment).submitted submission state = [instruction] ∧
          ((Operation.submit submission).run (client telling deployment) state).state =
            { state with accepted := state.accepted ++ [instruction] }) ∧
      ∀ failure, ((Operation.submit submission).run (client telling deployment) state).result =
          .error failure →
        ((Operation.submit submission).run (client telling deployment) state).state = state) ∧
    (∀ state, ∀ op : Operation, op.reads = true →
      (op.run (client telling deployment) state).state = state) ∧
    (∀ state steps, (after (client telling deployment) state steps).accepted =
      state.accepted ++ acceptedIn (client telling deployment) state steps) ∧
    (∀ state, ∀ operations : List Operation,
      after (client telling deployment) state (operations.map .operation) =
        { state with accepted := state.accepted ++
            acceptedIn (client telling deployment) state (operations.map .operation) }) ∧
    ∀ state, ∀ operations : List Operation, ∀ op : Operation, op.reads = true →
      (op.run (client telling deployment)
          (after (client telling deployment) state (operations.map .operation))).result =
        (op.run (client telling deployment) state).result := by
  refine ⟨?_, ?_, fun _ => accepted_after, fun _ => after_operations, ?_⟩
  · intro state submission
    rw [Operation.result_run_submit]
    rcases submit_memory_cases telling deployment state submission with
      ⟨⟨failure, hfailed⟩, hstate⟩ | ⟨told, instruction, hanswer, hsubmitted, hstate⟩
    · refine ⟨?_, fun _ _ => hstate⟩
      intro answer h
      rw [hfailed] at h
      cases h
    · refine ⟨fun _ _ => ⟨instruction, hsubmitted, hstate⟩, ?_⟩
      intro failure h
      rw [hanswer] at h
      cases h
  · intro state op h
    exact Operation.state_run_of_reads h
  · intro state operations op h
    rw [after_operations, Operation.run_congr_of_reads (client telling deployment) state
      (state.accept _) (fun _ => rfl) h]

def sampleDeposit : Submission := .deposit (.ofNat 1) 5

/-- A deposit is the one instruction accepted, and what is read of the config is the same. -/
theorem accepted_of_history_deposit :
    ∃ instruction, (client true .standard).submitted sampleDeposit .empty = [instruction] ∧
      (after (client true .standard) .empty [.operation (.submit sampleDeposit)]).accepted =
        [instruction] ∧
      (Operation.fetchConfig.run (client true .standard)
          (after (client true .standard) .empty [.operation (.submit sampleDeposit)])).result =
        (Operation.fetchConfig.run (client true .standard) .empty).result := by
  obtain ⟨hsubmit, -, hsteps, -, hread⟩ := accepted_of_history true .standard
  have hok :
      ((client true .standard).submit sampleDeposit .empty).result.toOption.isSome = true := by
    decide +kernel
  cases hresult : ((client true .standard).submit sampleDeposit .empty).result with
  | error failure =>
      rw [hresult] at hok
      cases hok
  | ok told =>
      have hanswer : ((Operation.submit sampleDeposit).run (client true .standard) .empty).result =
          .ok (told.elim .done .address) := by
        rw [Operation.result_run_submit, hresult, Except.map]
      obtain ⟨instruction, hsubmitted, -⟩ := (hsubmit .empty sampleDeposit).1 _ hanswer
      refine ⟨instruction, hsubmitted, ?_, hread .empty [.submit sampleDeposit] .fetchConfig rfl⟩
      rw [hsteps, acceptedIn, acceptedIn, Step.accepted, Operation.accepted, hresult, hsubmitted]
      rfl

end MemoryLedger

end VaultWire
