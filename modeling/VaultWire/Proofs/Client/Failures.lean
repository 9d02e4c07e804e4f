import VaultWire.Client.Memory
import VaultWire.Proofs.Client.MissingAddress
import VaultWire.Proofs.Client.Outcome
import VaultWire.Proofs.Client.SignedCommand

/-!
# How operations fail

An operation fails because an address does not exist, because the ledger or its clock fails, because
the program rejects an instruction, because an account is missing or because its data cannot be read.
Each failure is told in a form of its own, so from what a client answers can be told what went wrong.
Seeds and commands are never at fault.
-/

namespace VaultWire

namespace ProgramFailure

/-- The list of failures is in the order of their numbers and leaves none out. -/
theorem map_code_all : all.map (·.code.toNat) = List.range 55 := rfl

theorem ofCode?_eq_some_iff {code : UInt32} {failure : ProgramFailure} :
    ofCode? code = some failure ↔ failure.code = code := by
  constructor
  · intro h
    have hmap : (all.map (·.code.toNat))[code.toNat]? = some failure.code.toNat := by
      rw [List.getElem?_map, ← ofCode?, h, Option.map_some]
    rw [map_code_all, List.getElem?_eq_some_iff] at hmap
    obtain ⟨hlt, hcode⟩ := hmap
    rw [List.getElem_range] at hcode
    exact UInt32.toNat_inj.mp hcode.symm
  · rintro rfl
    exact ofCode?_code failure

theorem ofCode?_eq_none_iff {code : UInt32} : ofCode? code = none ↔ 54 < code := by
  have hlength : all.length = 55 := rfl
  rw [ofCode?, List.getElem?_eq_none_iff, hlength, UInt32.lt_iff_toNat_lt]
  exact Nat.succ_le_iff

theorem exists_code_eq {code : UInt32} (h : code ≤ 54) :
    ∃ failure : ProgramFailure, failure.code = code := by
  cases hcode : ofCode? code with
  | none => exact absurd h (UInt32.not_le.mpr (ofCode?_eq_none_iff.mp hcode))
  | some failure => exact ⟨failure, ofCode?_eq_some_iff.mp hcode⟩

end ProgramFailure

theorem Submission.stamp_eq_error_iff {ε : Type} {clock : Except ε UInt32} {failure : ε}
    {submission : Submission} :
    submission.stamp clock = .error failure ↔ submission.LacksTime ∧ clock = .error failure := by
  by_cases htime : submission.LacksTime
  · rw [and_iff_right htime]
    cases submission
    case updateConfig authority extra₀ extra₁ update =>
      have hzero : update.timestamp = 0 := htime
      rw [stamp, if_pos hzero]
      cases clock with
      | error other =>
          change Except.error other = _ ↔ _
          rw [Except.error.injEq, Except.error.injEq]
      | ok time =>
          constructor
          · intro h
            cases h
          · intro h
            cases h
    all_goals cases htime
  · rw [stamp_of_not_lacksTime htime]
    constructor
    · intro h
      cases h
    · intro h
      exact absurd h.1 htime

/-- Where data is asked for, which may be an address that does not exist, and what it is read as. -/
structure Reading where
  address : Except CodecError Address
  answer : Bytes → Except CodecError Answer

namespace Operation

variable {σ ε : Type} {client : Client σ ε} {state : σ} {op : Operation} {address : Address}

/-- The reading of an operation that asks the ledger for data. -/
def reading? (deployment : Deployment) : Operation → Option Reading
  | submit _ | configAddress => none
  | fetchConfig =>
    some ⟨deployment.configAddress, fun raw => (Packed.unpack raw).map .config⟩
  | fetchEscrow maker id =>
    some ⟨deployment.escrowAddress maker id, fun raw => (Packed.unpack raw).map .escrow⟩
  | fetchRecord address schema => some ⟨.ok address, fun raw => (schema.decode raw).map .record⟩

/-- Whether the operation asks the ledger for the data of this account. -/
def Reads (op : Operation) (deployment : Deployment) (address : Address) : Prop :=
  ∃ reading, op.reading? deployment = some reading ∧ reading.address = .ok address

theorem reads_iff {deployment : Deployment} {reading : Reading}
    (h : op.reading? deployment = some reading) :
    op.Reads deployment address ↔ reading.address = .ok address := by
  constructor
  · rintro ⟨other, hother, haddress⟩
    obtain rfl := Option.some.inj (h.symm.trans hother)
    exact haddress
  · intro haddress
    exact ⟨reading, h, haddress⟩

theorem run_of_reading {reading : Reading} (h : op.reading? client.deployment = some reading) :
    op.run client state = (client.fetchAt reading.address state).andThen reading.answer := by
  cases op with
  | submit submission => cases h
  | configAddress => cases h
  | fetchConfig =>
      obtain rfl := Option.some.inj h
      rw [run, Client.fetchConfig, Outcome.map_andThen]
  | fetchEscrow maker id =>
      obtain rfl := Option.some.inj h
      rw [run, Client.fetchEscrow, Outcome.map_andThen]
  | fetchRecord address schema =>
      obtain rfl := Option.some.inj h
      rw [run, Client.fetchRecord, Outcome.map_andThen, Client.fetchAt]

theorem failsOnlyWith_address {deployment : Deployment} {reading : Reading}
    (h : op.reading? deployment = some reading) :
    FailsOnlyWith .noValidAddress reading.address := by
  cases op with
  | submit submission => cases h
  | configAddress => cases h
  | fetchConfig =>
      obtain rfl := Option.some.inj h
      exact deployment.failsOnlyWith_configAddress
  | fetchEscrow maker id =>
      obtain rfl := Option.some.inj h
      exact (Purpose.escrow deployment.program maker id).failsOnlyWith_address
  | fetchRecord address schema =>
      obtain rfl := Option.some.inj h
      exact failsOnlyWith_ok _ _

end Operation

namespace Client

variable {σ ε : Type} {client : Client σ ε} {state : σ} {failure : ε} {error : ClientError ε}
  {submission : Submission} {address : Except CodecError Address}

theorem result_fetchAt_eq_error_iff :
    (client.fetchAt address state).result = .error error ↔
      (∃ cause, address = .error cause ∧ .codec cause = error) ∨
      (∃ found failure, address = .ok found ∧ client.ledger.fetch found state = .error failure ∧
        .ledger failure = error) ∨
      ∃ found, address = .ok found ∧ client.ledger.fetch found state = .ok none ∧
        .accountNotFound found = error := by
  cases address with
  | error cause => simp [fetchAt, Outcome.ofResult]
  | ok found =>
      rcases hfetch : client.ledger.fetch found state with failure | _ | raw
      all_goals simp [fetchAt, fetch, hfetch]

theorem result_fetchAt_eq_ok_iff {raw : Bytes} :
    (client.fetchAt address state).result = .ok raw ↔
      ∃ found, address = .ok found ∧ client.ledger.fetch found state = .ok (some raw) := by
  cases address with
  | error cause => simp [fetchAt, Outcome.ofResult]
  | ok found =>
      rcases hfetch : client.ledger.fetch found state with failure | _ | raw
      all_goals simp [fetchAt, fetch, hfetch]

theorem fetching_mem_log_fetchAt_iff {found : Address} :
    .fetching found ∈ (client.fetchAt address state).log ↔ address = .ok found := by
  cases address with
  | error cause => simp [fetchAt, Outcome.ofResult]
  | ok other => simp [fetchAt, fetch, eq_comm]

theorem fetching_not_mem_log_submit {found : Address} :
    .fetching found ∉ (client.submit submission state).log := by
  rcases client.submit_cases submission state with
    ⟨-, ⟨failure, hsubmit⟩, -⟩ | ⟨stamped, request, -, -, hsubmit, -⟩
  · rw [hsubmit]
    exact List.not_mem_nil
  · rw [hsubmit, send]
    cases client.ledger.submit request.instruction state with
    | mk result after => cases result <;> simp

theorem result_send_eq_error_iff {request : Request} :
    (client.send request state).result = .error error ↔
      ∃ failure after, client.ledger.submit request.instruction state = (.error failure, after) ∧
        client.submitError failure = error := by
  rcases hsubmit : client.ledger.submit request.instruction state with ⟨failure | _, after⟩
  all_goals simp [send, hsubmit]

theorem result_submit_eq_error_iff :
    (client.submit submission state).result = .error error ↔
      (∃ failure, submission.LacksTime ∧ client.ledger.clock state = .error failure ∧
        .ledger failure = error) ∨
      (∃ stamped cause, submission.stamp (client.ledger.clock state) = .ok stamped ∧
        stamped.request client.deployment = .error cause ∧ .codec cause = error) ∨
      ∃ instruction ∈ client.submitted submission state, ∃ failure after,
        client.ledger.submit instruction state = (.error failure, after) ∧
          client.submitError failure = error := by
  simp only [mem_submitted_iff, ← Submission.stamp_eq_error_iff, ← and_assoc, submit]
  cases hstamp : submission.stamp (client.ledger.clock state) with
  | error failure => simp [Outcome.ofResult]
  | ok stamped =>
      cases hrequest : stamped.request client.deployment with
      | error cause => simp [Outcome.ofResult, hrequest]
      | ok request => simp [hrequest, result_send_eq_error_iff]

theorem submitError_of_code {known : ProgramFailure}
    (h : client.ledger.customCode failure = some known.code) :
    client.submitError failure = .program known := by
  rw [submitError, h, Option.bind_some, ProgramFailure.ofCode?_code]

theorem submitError_of_unknown
    (h : ∀ code, client.ledger.customCode failure = some code → 54 < code) :
    client.submitError failure = .ledger failure := by
  rw [submitError]
  cases hcode : client.ledger.customCode failure with
  | none => rfl
  | some code => rw [Option.bind_some, ProgramFailure.ofCode?_eq_none_iff.mpr (h code hcode)]

/-- A failure tells the number of one of the program's failures, or none that the program has. -/
theorem known_or_unknown (client : Client σ ε) (failure : ε) :
    (∃ known : ProgramFailure, client.ledger.customCode failure = some known.code) ∨
      ∀ code, client.ledger.customCode failure = some code → 54 < code := by
  cases hcode : client.ledger.customCode failure with
  | none => exact .inr nofun
  | some code =>
      by_cases hle : code ≤ 54
      · obtain ⟨known, rfl⟩ := ProgramFailure.exists_code_eq hle
        exact .inl ⟨known, rfl⟩
      · refine .inr ?_
        rintro _ ⟨⟩
        exact UInt32.not_le.mp hle

end Client

namespace Operation

variable {σ ε : Type}

/-- The ways in which an operation fails, each with what the caller is told. -/
inductive Fails (client : Client σ ε) (state : σ) : Operation → ClientError ε → Prop where
  /-- The clock fails where an update comes without a time. -/
  | clock {submission : Submission} {failure : ε} (htime : submission.LacksTime)
      (hclock : client.ledger.clock state = .error failure) :
      Fails client state (.submit submission) (.ledger failure)
  /-- One of the accounts of an instruction has no address. -/
  | request {submission stamped : Submission}
      (hstamp : submission.stamp (client.ledger.clock state) = .ok stamped)
      (hrequest : stamped.request client.deployment = .error .noValidAddress) :
      Fails client state (.submit submission) (.codec .noValidAddress)
  /-- The program rejects the instruction with a number of its own. -/
  | rejected {submission : Submission} {instruction : Instruction} {failure : ε} {after : σ}
      {known : ProgramFailure} (hsubmitted : instruction ∈ client.submitted submission state)
      (hsubmit : client.ledger.submit instruction state = (.error failure, after))
      (hcode : client.ledger.customCode failure = some known.code) :
      Fails client state (.submit submission) (.program known)
  /-- The instruction is not accepted for any other reason. -/
  | refused {submission : Submission} {instruction : Instruction} {failure : ε} {after : σ}
      (hsubmitted : instruction ∈ client.submitted submission state)
      (hsubmit : client.ledger.submit instruction state = (.error failure, after))
      (hcode : ∀ code, client.ledger.customCode failure = some code → 54 < code) :
      Fails client state (.submit submission) (.ledger failure)
  /-- The config, whose address is asked for, has none. -/
  | config (haddress : client.deployment.configAddress = .error .noValidAddress) :
      Fails client state .configAddress (.codec .noValidAddress)
  /-- The account to read has no address. -/
  | address {op : Operation} {reading : Reading}
      (hreading : op.reading? client.deployment = some reading)
      (haddress : reading.address = .error .noValidAddress) :
      Fails client state op (.codec .noValidAddress)
  | fetch {op : Operation} {address : Address} {failure : ε}
      (hreads : op.Reads client.deployment address)
      (hfetch : client.ledger.fetch address state = .error failure) :
      Fails client state op (.ledger failure)
  | absent {op : Operation} {address : Address} (hreads : op.Reads client.deployment address)
      (hfetch : client.ledger.fetch address state = .ok none) :
      Fails client state op (.accountNotFound address)
  /-- The data is not of the layout that it is read with. -/
  | data {op : Operation} {reading : Reading} {address : Address} {raw : Bytes}
      {cause : CodecError} (hreading : op.reading? client.deployment = some reading)
      (haddress : reading.address = .ok address)
      (hfetch : client.ledger.fetch address state = .ok (some raw))
      (hanswer : reading.answer raw = .error cause) :
      Fails client state op (.codec cause)

variable {client : Client σ ε} {state : σ} {op : Operation} {error : ClientError ε}
  {submission : Submission} {reading : Reading}

theorem fails_submit (h : (client.submit submission state).result = .error error) :
    Fails client state (.submit submission) error := by
  rcases Client.result_submit_eq_error_iff.mp h with
    ⟨failure, htime, hclock, rfl⟩ | ⟨stamped, cause, hstamp, hrequest, rfl⟩ |
      ⟨instruction, hsubmitted, failure, after, hsubmit, rfl⟩
  · exact .clock htime hclock
  · obtain rfl := stamped.failsOnlyWith_request client.deployment cause hrequest
    exact .request hstamp hrequest
  · rcases client.known_or_unknown failure with ⟨known, hcode⟩ | hcode
    · rw [Client.submitError_of_code hcode]
      exact .rejected hsubmitted hsubmit hcode
    · rw [Client.submitError_of_unknown hcode]
      exact .refused hsubmitted hsubmit hcode

theorem fails_reading (hreading : op.reading? client.deployment = some reading)
    (h : (op.run client state).result = .error error) : op.Fails client state error := by
  rw [run_of_reading hreading, Outcome.result_andThen_eq_error_iff,
    Client.result_fetchAt_eq_error_iff] at h
  rcases h with (⟨cause, haddress, rfl⟩ | ⟨address, failure, haddress, hfetch, rfl⟩ |
    ⟨address, haddress, hfetch, rfl⟩) | ⟨raw, cause, hraw, hanswer, rfl⟩
  · obtain rfl := failsOnlyWith_address hreading cause haddress
    exact .address hreading haddress
  · exact .fetch ⟨reading, hreading, haddress⟩ hfetch
  · exact .absent ⟨reading, hreading, haddress⟩ hfetch
  · obtain ⟨address, haddress, hfetch⟩ := Client.result_fetchAt_eq_ok_iff.mp hraw
    exact .data hreading haddress hfetch hanswer

/-- What is read is what is logged. -/
theorem fetching_mem_log_iff {address : Address} :
    .fetching address ∈ (op.run client state).log ↔ op.Reads client.deployment address := by
  have hnone (h : op.reading? client.deployment = none) :
      ¬ op.Reads client.deployment address := by
    rintro ⟨reading, hreading, -⟩
    rw [h] at hreading
    cases hreading
  have hsome {reading : Reading} (h : op.reading? client.deployment = some reading) :
      .fetching address ∈ (op.run client state).log ↔ op.Reads client.deployment address := by
    rw [run_of_reading h, reads_iff h]
    exact Client.fetching_mem_log_fetchAt_iff
  cases op with
  | submit submission =>
      refine iff_of_false ?_ (hnone rfl)
      exact Client.fetching_not_mem_log_submit
  | configAddress => exact iff_of_false List.not_mem_nil (hnone rfl)
  | fetchConfig => exact hsome rfl
  | fetchEscrow maker id => exact hsome rfl
  | fetchRecord address schema => exact hsome rfl

theorem result_run_configAddress_eq_error_iff :
    (configAddress.run client state).result = .error error ↔
      ∃ cause, client.deployment.configAddress = .error cause ∧ .codec cause = error := by
  rw [run, Outcome.ofResult, map_eq_error_iff, mapError_eq_error_iff]

theorem fails_of_run (h : (op.run client state).result = .error error) :
    op.Fails client state error := by
  cases op with
  | submit submission => exact fails_submit (Outcome.result_map_eq_error_iff.mp h)
  | configAddress =>
      obtain ⟨cause, haddress, rfl⟩ := result_run_configAddress_eq_error_iff.mp h
      obtain rfl := client.deployment.failsOnlyWith_configAddress cause haddress
      exact .config haddress
  | fetchConfig => exact fails_reading rfl h
  | fetchEscrow maker id => exact fails_reading rfl h
  | fetchRecord address schema => exact fails_reading rfl h

theorem result_of_fails (h : op.Fails client state error) :
    (op.run client state).result = .error error := by
  cases h with
  | clock htime hclock =>
      exact Outcome.result_map_eq_error_iff.mpr
        (Client.result_submit_eq_error_iff.mpr (.inl ⟨_, htime, hclock, rfl⟩))
  | request hstamp hrequest =>
      exact Outcome.result_map_eq_error_iff.mpr
        (Client.result_submit_eq_error_iff.mpr (.inr (.inl ⟨_, _, hstamp, hrequest, rfl⟩)))
  | rejected hsubmitted hsubmit hcode =>
      exact Outcome.result_map_eq_error_iff.mpr (Client.result_submit_eq_error_iff.mpr
        (.inr (.inr ⟨_, hsubmitted, _, _, hsubmit, Client.submitError_of_code hcode⟩)))
  | refused hsubmitted hsubmit hcode =>
      exact Outcome.result_map_eq_error_iff.mpr (Client.result_submit_eq_error_iff.mpr
        (.inr (.inr ⟨_, hsubmitted, _, _, hsubmit, Client.submitError_of_unknown hcode⟩)))
  | config haddress =>
      exact result_run_configAddress_eq_error_iff.mpr ⟨_, haddress, rfl⟩
  | address hreading haddress =>
      rw [run_of_reading hreading, Outcome.result_andThen_eq_error_iff]
      exact .inl (Client.result_fetchAt_eq_error_iff.mpr (.inl ⟨_, haddress, rfl⟩))
  | fetch hreads hfetch =>
      obtain ⟨reading, hreading, haddress⟩ := hreads
      rw [run_of_reading hreading, Outcome.result_andThen_eq_error_iff]
      exact .inl (Client.result_fetchAt_eq_error_iff.mpr
        (.inr (.inl ⟨_, _, haddress, hfetch, rfl⟩)))
  | absent hreads hfetch =>
      obtain ⟨reading, hreading, haddress⟩ := hreads
      rw [run_of_reading hreading, Outcome.result_andThen_eq_error_iff]
      exact .inl (Client.result_fetchAt_eq_error_iff.mpr (.inr (.inr ⟨_, haddress, hfetch, rfl⟩)))
  | data hreading haddress hfetch hanswer =>
      rw [run_of_reading hreading, Outcome.result_andThen_eq_error_iff]
      exact .inr ⟨_, _, Client.result_fetchAt_eq_ok_iff.mpr ⟨_, haddress, hfetch⟩, hanswer, rfl⟩

/-- An operation fails in these ways and in no other. -/
theorem result_run_eq_error_iff :
    (op.run client state).result = .error error ↔ op.Fails client state error :=
  ⟨fails_of_run, result_of_fails⟩

end Operation

namespace Client

variable {σ ε : Type}

/-- A failure of the ledger is told as the program's if the program has rejected the instruction with
a number that it has, and otherwise as it came, whatever number it tells. An account is missing only
where it was asked for and is not there, and a submission lacks nothing but an address. -/
theorem failure_forms (client : Client σ ε) (state : σ) :
    (∀ submission, ∀ instruction ∈ client.submitted submission state, ∀ failure after,
      client.ledger.submit instruction state = (.error failure, after) →
      (∀ code, client.ledger.customCode failure = some code → code ≤ 54 →
        ∃ known : ProgramFailure, known.code = code ∧
          ((Operation.submit submission).run client state).result = .error (.program known)) ∧
      ((∀ code, client.ledger.customCode failure = some code → 54 < code) →
        ((Operation.submit submission).run client state).result = .error (.ledger failure))) ∧
    (∀ (op : Operation) (address), LogEntry.fetching address ∈ (op.run client state).log ↔
      op.Reads client.deployment address) ∧
    (∀ (op : Operation) (address) (failure), op.Reads client.deployment address →
      client.ledger.fetch address state = .error failure →
        (op.run client state).result = .error (.ledger failure)) ∧
    (∀ submission failure, submission.LacksTime → client.ledger.clock state = .error failure →
      ((Operation.submit submission).run client state).result = .error (.ledger failure)) ∧
    (∀ (op : Operation) (address),
      (op.run client state).result = .error (.accountNotFound address) ↔
      op.Reads client.deployment address ∧ client.ledger.fetch address state = .ok none) ∧
    ∀ submission cause,
      ((Operation.submit submission).run client state).result = .error (.codec cause) →
        cause = .noValidAddress := by
  refine ⟨?_, fun op address => Operation.fetching_mem_log_iff, ?_, ?_, ?_, ?_⟩
  · intro submission instruction hsubmitted failure after hsubmit
    constructor
    · intro code hcode hle
      obtain ⟨known, rfl⟩ := ProgramFailure.exists_code_eq hle
      exact ⟨known, rfl, Operation.result_run_eq_error_iff.mpr (.rejected hsubmitted hsubmit hcode)⟩
    · intro hcode
      exact Operation.result_run_eq_error_iff.mpr (.refused hsubmitted hsubmit hcode)
  · intro op address failure hreads hfetch
    exact Operation.result_run_eq_error_iff.mpr (.fetch hreads hfetch)
  · intro submission failure htime hclock
    exact Operation.result_run_eq_error_iff.mpr (.clock htime hclock)
  · intro op address
    constructor
    · intro h
      cases Operation.result_run_eq_error_iff.mp h with
      | absent hreads hfetch => exact ⟨hreads, hfetch⟩
    · rintro ⟨hreads, hfetch⟩
      exact Operation.result_run_eq_error_iff.mpr (.absent hreads hfetch)
  · intro submission cause h
    cases Operation.result_run_eq_error_iff.mp h with
    | request => rfl
    | address hreading => cases hreading
    | data hreading => cases hreading

/-- A ledger where nothing works: instructions are rejected with the number, and data and the time
are not told, with a number that the program has. -/
def failingLedger (code : UInt32) : MemoryLedger :=
  { MemoryLedger.empty with
    submitFailure := some (.rejected code)
    fetchFailure := some (.rejected 1)
    clockFailure := some (.rejected 1) }

/-- The number 32 is known and 900 is not; and a known number is looked at only where an instruction
is rejected. -/
theorem failure_forms_failingLedger :
    ((Operation.submit (.deposit (.ofNat 1) 5)).run sampleClient (failingLedger 32)).result =
        .error (.program .vaultPda) ∧
      ((Operation.submit (.deposit (.ofNat 1) 5)).run sampleClient (failingLedger 900)).result =
        .error (.ledger (.rejected 900)) ∧
      ((Operation.fetchRecord .zero Escrow.schema).run sampleClient (failingLedger 32)).result =
        .error (.ledger (.rejected 1)) ∧
      ((Operation.submit (sampleUpdate 0)).run sampleClient (failingLedger 32)).result =
        .error (.ledger (.rejected 1)) ∧
      ((Operation.fetchRecord .zero Escrow.schema).run sampleClient .empty).result =
        .error (.accountNotFound .zero) := by
  have hsome : ((Submission.deposit (.ofNat 1) 5).request .standard).toOption.isSome = true := by
    decide +kernel
  have hreads : (Operation.fetchRecord .zero Escrow.schema).Reads .standard .zero :=
    ⟨_, rfl, rfl⟩
  cases hrequest : (Submission.deposit (.ofNat 1) 5).request .standard with
  | error cause =>
      rw [hrequest] at hsome
      cases hsome
  | ok request =>
      have hsubmitted (code : UInt32) : request.instruction ∈
          sampleClient.submitted (.deposit (.ofNat 1) 5) (failingLedger code) :=
        mem_submitted_iff.mpr ⟨_, request, rfl, hrequest, rfl⟩
      obtain ⟨hsubmit, -, hfetch, hclock, -, -⟩ := failure_forms sampleClient (failingLedger 32)
      obtain ⟨hsubmit', -⟩ := failure_forms sampleClient (failingLedger 900)
      obtain ⟨-, -, -, -, habsent, -⟩ := failure_forms sampleClient .empty
      refine ⟨?_, ?_, hfetch _ _ _ hreads rfl, hclock _ _ rfl rfl, (habsent _ _).mpr ⟨hreads, rfl⟩⟩
      · obtain ⟨known, hcode, hresult⟩ :=
          (hsubmit _ _ (hsubmitted 32) _ _ rfl).1 32 rfl (by decide)
        obtain rfl : ProgramFailure.vaultPda = known :=
          Option.some.inj (ProgramFailure.ofCode?_eq_some_iff.mpr hcode)
        exact hresult
      · refine (hsubmit' _ _ (hsubmitted 900) _ _ rfl).2 ?_
        rintro _ ⟨⟩
        decide

end Client

end VaultWire
