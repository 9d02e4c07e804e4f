import VaultWire.Client.Ledger
import VaultWire.Proofs.Except

/-!
# Outcomes in steps

An outcome whose result is worked on further: with a reading that may fail, or with another form of
the answer.
-/

namespace VaultWire

namespace Outcome

variable {σ ε α β γ : Type} {outcome : Outcome σ ε α} {failure : ClientError ε}

theorem andThen_andThen (outcome : Outcome σ ε α) (f : α → Except CodecError β)
    (g : β → Except CodecError γ) :
    (outcome.andThen f).andThen g = outcome.andThen fun a => f a >>= g := by
  obtain ⟨result, state, log⟩ := outcome
  cases result with
  | error failure => rfl
  | ok a =>
      simp only [andThen, Except.bind]
      cases f a <;> rfl

theorem map_andThen (outcome : Outcome σ ε α) (f : α → Except CodecError β) (g : β → γ) :
    (outcome.andThen f).map g = outcome.andThen fun a => (f a).map g := by
  obtain ⟨result, state, log⟩ := outcome
  cases result with
  | error failure => rfl
  | ok a =>
      simp only [andThen, map, Except.bind]
      cases f a <;> rfl

theorem result_andThen_of_ok {f : α → Except CodecError β} {a : α} (h : outcome.result = .ok a) :
    (outcome.andThen f).result = (f a).mapError .codec := by
  rw [andThen, h]
  rfl

theorem result_map_eq_error_iff {f : α → β} :
    (outcome.map f).result = .error failure ↔ outcome.result = .error failure :=
  map_eq_error_iff

/-- A reading fails with the outcome, or on its own with a cause of the codec. -/
theorem result_andThen_eq_error_iff {f : α → Except CodecError β} :
    (outcome.andThen f).result = .error failure ↔
      outcome.result = .error failure ∨
        ∃ a cause, outcome.result = .ok a ∧ f a = .error cause ∧ .codec cause = failure := by
  obtain ⟨result, state, log⟩ := outcome
  cases result with
  | error other =>
      change Except.error other = _ ↔ Except.error other = _ ∨ _
      simp
  | ok a =>
      change (f a).mapError ClientError.codec = _ ↔ _
      simp [mapError_eq_error_iff]

end Outcome

end VaultWire
