/-!
# Results of steps that may fail

When a chain of steps that may fail has a result, each of its steps has one; and when each step can
fail in one way only, so can the chain.
-/

namespace VaultWire

variable {ε δ α β γ : Type}

theorem bind_eq_ok_iff {x : Except ε α} {f : α → Except ε β} {b : β} :
    (x >>= f) = .ok b ↔ ∃ a, x = .ok a ∧ f a = .ok b := by
  cases x with
  | error e => simp [bind, Except.bind]
  | ok a => simp [bind, Except.bind]

theorem map_eq_ok_iff {x : Except ε α} {f : α → β} {b : β} :
    x.map f = .ok b ↔ ∃ a, x = .ok a ∧ f a = b := by
  cases x with
  | error e => simp [Except.map]
  | ok a => simp [Except.map]

theorem map_eq_error_iff {x : Except ε α} {f : α → β} {e : ε} :
    x.map f = .error e ↔ x = .error e := by
  cases x with
  | error e => simp [Except.map]
  | ok a => simp [Except.map]

theorem mapError_eq_ok_iff {x : Except ε α} {f : ε → δ} {a : α} :
    x.mapError f = .ok a ↔ x = .ok a := by
  cases x with
  | error e => exact iff_of_false nofun nofun
  | ok b =>
      change Except.ok b = Except.ok a ↔ _
      rw [Except.ok.injEq, Except.ok.injEq]

theorem mapError_eq_error_iff {x : Except ε α} {f : ε → δ} {d : δ} :
    x.mapError f = .error d ↔ ∃ e, x = .error e ∧ f e = d := by
  cases x with
  | error e =>
      change Except.error (f e) = Except.error d ↔ _
      simp
  | ok a => exact iff_of_false nofun nofun

/-- A guarded result fails exactly if its guard does. -/
theorem ite_eq_error_iff {guard : Prop} [Decidable guard] {a : α} {e failure : ε} :
    (if guard then .ok a else .error e : Except ε α) = .error failure ↔
      ¬ guard ∧ failure = e := by
  by_cases h : guard
  · rw [if_pos h]
    exact iff_of_false nofun fun hfailure => hfailure.1 h
  · rw [if_neg h, Except.error.injEq, and_iff_right h]
    exact eq_comm

theorem exists_ite_eq_ok_iff {guard : Prop} [Decidable guard] {a : α} {e : ε} :
    (∃ b, (if guard then .ok a else .error e : Except ε α) = .ok b) ↔ guard := by
  by_cases h : guard
  · rw [if_pos h]
    exact iff_of_true ⟨a, rfl⟩ h
  · rw [if_neg h]
    exact iff_of_false nofun h

/-- Two steps in a row whose results are put together, the first with its failure annotated. -/
theorem mapError_bind_bind_eq_ok_iff {x : Except ε α} {g : ε → δ} {y : Except δ β}
    {f : α → β → γ} {c : γ} :
    (x.mapError g >>= fun a => y >>= fun b => pure (f a b)) = .ok c ↔
      ∃ a b, x = .ok a ∧ y = .ok b ∧ c = f a b := by
  rw [bind_eq_ok_iff]
  constructor
  · rintro ⟨a, ha, h⟩
    obtain ⟨b, hb, hc⟩ := bind_eq_ok_iff.mp h
    exact ⟨a, b, mapError_eq_ok_iff.mp ha, hb, (Except.ok.inj hc).symm⟩
  · rintro ⟨a, b, ha, hb, rfl⟩
    exact ⟨a, mapError_eq_ok_iff.mpr ha, bind_eq_ok_iff.mpr ⟨b, hb, rfl⟩⟩

/-- Whether the step has a result or fails in this one way. -/
def FailsOnlyWith (e : ε) (x : Except ε α) : Prop := ∀ failure, x = .error failure → failure = e

theorem failsOnlyWith_ok (e : ε) (a : α) : FailsOnlyWith e (.ok a) := by
  intro failure h
  cases h

theorem FailsOnlyWith.bind {e : ε} {x : Except ε α} {f : α → Except ε β}
    (hx : FailsOnlyWith e x) (hf : ∀ a, FailsOnlyWith e (f a)) : FailsOnlyWith e (x >>= f) := by
  cases x with
  | error failure =>
      intro other h
      cases h
      exact hx failure rfl
  | ok a => exact hf a

theorem FailsOnlyWith.map {e : ε} {x : Except ε α} (hx : FailsOnlyWith e x) (f : α → β) :
    FailsOnlyWith e (x.map f) := by
  intro failure h
  exact hx failure (map_eq_error_iff.mp h)

end VaultWire
