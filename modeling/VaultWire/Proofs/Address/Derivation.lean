import Mathlib.Data.List.Basic
import VaultWire.Address.Derivation
import VaultWire.Proofs.Except

/-!
# Messages and searches

The bump, the program and the marker have fixed widths at the end of every hashed message, so a
message determines them, and of the seeds it determines what they are together. An address that a
search finds is the hash of one such message.
-/

namespace VaultWire

theorem Address.eq_of_bytes_eq {a b : Address} (h : a.bytes = b.bytes) : a = b := by
  cases a
  cases b
  cases h
  rfl

/-- The seeds enter a message only through their concatenation. -/
theorem Seeds.message_eq_iff {s t : List Bytes} {i j : UInt8} {p q : Address} :
    message s i p = message t j q ↔ s.flatten = t.flatten ∧ i = j ∧ p = q := by
  constructor
  · intro h
    have hprogram := List.append_cancel_right h
    obtain ⟨hfront, hbytes⟩ :=
      List.append_inj' hprogram (p.length_bytes.trans q.length_bytes.symm)
    obtain ⟨hflatten, hbump⟩ := List.append_inj' hfront rfl
    exact ⟨hflatten, List.singleton_inj.mp hbump, Address.eq_of_bytes_eq hbytes⟩
  · rintro ⟨hflatten, rfl, rfl⟩
    rw [message, message, hflatten]

namespace Scheme

variable {scheme : Scheme} {seeds : List Bytes} {program address : Address} {bump : UInt8}

theorem candidate_of_search {bumps : List UInt8}
    (h : scheme.search seeds program bumps = some (address, bump)) :
    scheme.candidate seeds bump program = address := by
  induction bumps with
  | nil => cases h
  | cons first rest ih =>
      rw [search] at h
      by_cases hcurve : scheme.onCurve (scheme.candidate seeds first program)
      · rw [if_pos hcurve] at h
        exact ih h
      · rw [if_neg hcurve] at h
        cases h
        rfl

theorem find_eq_ok_iff :
    scheme.find seeds program = .ok (address, bump) ↔
      Seeds.check seeds = .ok () ∧
        scheme.search seeds program bumps = some (address, bump) := by
  rw [find, bind_eq_ok_iff]
  constructor
  · rintro ⟨⟨⟩, hcheck, h⟩
    cases hsearch : scheme.search seeds program bumps with
    | none => rw [hsearch] at h; cases h
    | some found =>
        rw [hsearch] at h
        cases h
        exact ⟨hcheck, rfl⟩
  · rintro ⟨hcheck, hsearch⟩
    exact ⟨(), hcheck, by rw [hsearch]; rfl⟩

theorem candidate_of_find (h : scheme.find seeds program = .ok (address, bump)) :
    scheme.candidate seeds bump program = address :=
  candidate_of_search (find_eq_ok_iff.mp h).2

end Scheme

end VaultWire
