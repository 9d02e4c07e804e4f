import VaultWire.Client.Basic

/-!
# What reaches the ledger

A ledger that keeps every instruction handed to it, whether it accepts it or not, and is otherwise
the ledger that it records. Seen through it, a submission hands over the one instruction of its
request, or none if the clock or the request fails.
-/

namespace VaultWire

variable {σ ε : Type}

/-- The ledger that also keeps the instructions handed to it, oldest first. -/
def Ledger.recording (ledger : Ledger σ ε) : Ledger (σ × List Instruction) ε where
  submit instruction state :=
    let (result, after) := ledger.submit instruction state.1
    (result, after, state.2 ++ [instruction])
  fetch address state := ledger.fetch address state.1
  clock state := ledger.clock state.1
  customCode := ledger.customCode

/-- The outcome with the state of the ledger in another form. -/
def Outcome.mapState {τ α : Type} (f : σ → τ) (outcome : Outcome σ ε α) : Outcome τ ε α :=
  ⟨outcome.result, f outcome.state, outcome.log⟩

namespace Client

def recording (client : Client σ ε) : Client (σ × List Instruction) ε :=
  ⟨client.ledger.recording, client.deployment⟩

/-- The instructions that a submission hands to the ledger. They are those of the client itself,
since recording changes no outcome (`submit_recording`). -/
def submitted (client : Client σ ε) (submission : Submission) (state : σ) : List Instruction :=
  (client.recording.submit submission (state, [])).state.2

variable {client : Client σ ε} {submission : Submission} {state : σ} {instruction : Instruction}

theorem send_recording (client : Client σ ε) (request : Request) (state : σ)
    (kept : List Instruction) :
    client.recording.send request (state, kept) =
      ⟨(client.send request state).result,
        ((client.send request state).state, kept ++ [request.instruction]),
        (client.send request state).log⟩ := by
  have hrecord : client.recording.ledger.submit request.instruction (state, kept) =
      ((client.ledger.submit request.instruction state).1,
        (client.ledger.submit request.instruction state).2, kept ++ [request.instruction]) := rfl
  rcases hsubmit : client.ledger.submit request.instruction state with ⟨_ | _, after⟩
  · simp only [send, hrecord, hsubmit]
    rfl
  · simp only [send, hrecord, hsubmit]

theorem mapState_send_recording (client : Client σ ε) (request : Request) (state : σ)
    (kept : List Instruction) :
    (client.recording.send request (state, kept)).mapState Prod.fst =
      client.send request state := by
  rw [send_recording]
  rfl

/-- Recording changes neither the answer nor what becomes of the ledger nor what is logged. -/
theorem submit_recording (client : Client σ ε) (submission : Submission) (state : σ)
    (kept : List Instruction) :
    (client.recording.submit submission (state, kept)).mapState Prod.fst =
      client.submit submission state := by
  have hclock : client.recording.ledger.clock (state, kept) = client.ledger.clock state := rfl
  have hdeployment : client.recording.deployment = client.deployment := rfl
  simp only [submit, hclock, hdeployment]
  cases submission.stamp (client.ledger.clock state) with
  | error failure => rfl
  | ok stamped =>
      cases hrequest : stamped.request client.deployment with
      | error cause =>
          simp only [hrequest]
          rfl
      | ok request =>
          simp only [hrequest]
          exact client.mapState_send_recording request state kept

/-- A submission either fails before the ledger is asked, for want of a request, or is the sending
of its request. -/
theorem submit_eq_error_or_send (client : Client σ ε) (submission : Submission) (state : σ) :
    ((∀ stamped request, submission.stamp (client.ledger.clock state) = .ok stamped →
        stamped.request client.deployment ≠ .ok request) ∧
      ∃ failure, client.submit submission state = .ofResult (.error failure) state) ∨
    ∃ stamped request, submission.stamp (client.ledger.clock state) = .ok stamped ∧
      stamped.request client.deployment = .ok request ∧
      client.submit submission state = client.send request state := by
  simp only [submit]
  cases submission.stamp (client.ledger.clock state) with
  | error failure =>
      refine .inl ⟨?_, .ledger failure, rfl⟩
      intro _ _ hstamp
      cases hstamp
  | ok stamped =>
      cases hrequest : stamped.request client.deployment with
      | error cause =>
          refine .inl ⟨?_, .codec cause, ?_⟩
          · intro _ _ hstamp
            cases hstamp
            rw [hrequest]
            nofun
          · simp only [hrequest]
      | ok request =>
          refine .inr ⟨stamped, request, rfl, hrequest, ?_⟩
          simp only [hrequest]

/-- A submission either fails before the ledger is asked, for want of a request, or hands over the
one instruction of its request. -/
theorem submit_cases (client : Client σ ε) (submission : Submission) (state : σ) :
    ((∀ stamped request, submission.stamp (client.ledger.clock state) = .ok stamped →
        stamped.request client.deployment ≠ .ok request) ∧
      (∃ failure, client.submit submission state = .ofResult (.error failure) state) ∧
      client.submitted submission state = []) ∨
    ∃ stamped request, submission.stamp (client.ledger.clock state) = .ok stamped ∧
      stamped.request client.deployment = .ok request ∧
      client.submit submission state = client.send request state ∧
      client.submitted submission state = [request.instruction] := by
  -- The cases are those of the recording client, whose outcome tells that of the client.
  have hforget := client.submit_recording submission state []
  rcases client.recording.submit_eq_error_or_send submission (state, []) with
    ⟨hnone, failure, hrecorded⟩ | ⟨stamped, request, hstamp, hrequest, hrecorded⟩
  · rw [hrecorded] at hforget
    refine .inl ⟨hnone, ⟨failure, hforget.symm⟩, ?_⟩
    rw [submitted, hrecorded]
    rfl
  · rw [hrecorded, mapState_send_recording] at hforget
    refine .inr ⟨stamped, request, hstamp, hrequest, hforget.symm, ?_⟩
    rw [submitted, hrecorded, send_recording, List.nil_append]

theorem answer_of_send {request : Request} {answer : Option Address}
    (h : (client.send request state).result = .ok answer) : answer = request.answer := by
  rw [send] at h
  rcases hsubmit : client.ledger.submit request.instruction state with ⟨_ | _, after⟩
  · rw [hsubmit] at h
    cases h
  · rw [hsubmit] at h
    cases h
    rfl

theorem mem_submitted_iff :
    instruction ∈ client.submitted submission state ↔
      ∃ stamped request, submission.stamp (client.ledger.clock state) = .ok stamped ∧
        stamped.request client.deployment = .ok request ∧ request.instruction = instruction := by
  rcases client.submit_cases submission state with
    ⟨hnone, -, hsubmitted⟩ | ⟨stamped, request, hstamp, hrequest, -, hsubmitted⟩
  · rw [hsubmitted]
    refine iff_of_false List.not_mem_nil ?_
    rintro ⟨stamped, request, hstamp, hrequest, -⟩
    exact hnone stamped request hstamp hrequest
  · rw [hsubmitted, List.mem_singleton]
    constructor
    · rintro rfl
      exact ⟨stamped, request, hstamp, hrequest, rfl⟩
    · rintro ⟨stamped', request', hstamp', hrequest', rfl⟩
      rw [hstamp] at hstamp'
      cases hstamp'
      rw [hrequest] at hrequest'
      cases hrequest'
      rfl

end Client

end VaultWire
