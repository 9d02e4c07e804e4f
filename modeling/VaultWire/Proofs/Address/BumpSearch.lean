import VaultWire.Address.Deployment
import VaultWire.Proofs.Address.Derivation

/-!
# The highest usable bump

The search for an address walks the bumps downwards, so it ends at the highest bump whose candidate
is off the curve, or at none if all candidates are on it. Seeds that break a limit are refused
before any candidate is looked at, with one and the same report for every bump.
-/

namespace VaultWire

namespace Seeds

/-- The report that seeds are refused with. Their number is counted before their lengths are looked
at, and of the lengths the first one beyond the limit is told. -/
inductive Refused : List Bytes → CodecError → Prop where
  | number {seeds : List Bytes} : 16 ≤ seeds.length → Refused seeds (.tooManySeeds seeds.length 15)
  | length {front back : List Bytes} {seed : Bytes} : (front ++ seed :: back).length < 16 →
      (∀ earlier ∈ front, earlier.length ≤ 32) → 32 < seed.length →
      Refused (front ++ seed :: back) (.seedTooLong front.length seed.length 32)

theorem checkLengths_eq_error_iff {index : Nat} {seeds : List Bytes} {cause : CodecError} :
    checkLengths index seeds = .error cause ↔
      ∃ front seed back, seeds = front ++ seed :: back ∧
        (∀ earlier ∈ front, earlier.length ≤ 32) ∧ 32 < seed.length ∧
        cause = .seedTooLong (index + front.length) seed.length 32 := by
  induction seeds generalizing index with
  | nil => simp [checkLengths]
  | cons first rest ih =>
      rw [checkLengths, maxLength]
      by_cases hlong : 32 < first.length
      · rw [if_pos hlong]
        constructor
        · intro h
          cases h
          exact ⟨[], first, rest, rfl, nofun, hlong, rfl⟩
        · rintro ⟨front, seed, back, hseeds, hfront, -, rfl⟩
          cases front with
          | nil => cases hseeds; rfl
          | cons other front =>
              cases hseeds
              have hshort := hfront first List.mem_cons_self
              omega
      · rw [if_neg hlong, ih]
        have hshort : first.length ≤ 32 := Nat.le_of_not_lt hlong
        constructor
        · rintro ⟨front, seed, back, rfl, hfront, hseed, rfl⟩
          refine ⟨first :: front, seed, back, rfl, ?_, hseed, ?_⟩
          · exact List.forall_mem_cons.mpr ⟨hshort, hfront⟩
          · rw [List.length_cons, Nat.add_right_comm, Nat.add_assoc]
        · rintro ⟨front, seed, back, hseeds, hfront, hseed, rfl⟩
          cases front with
          | nil => cases hseeds; exact absurd hseed hlong
          | cons other front =>
              cases hseeds
              refine ⟨front, seed, back, rfl, (List.forall_mem_cons.mp hfront).2, hseed, ?_⟩
              rw [List.length_cons, Nat.add_right_comm, Nat.add_assoc]

theorem check_eq_error_iff {seeds : List Bytes} {cause : CodecError} :
    check seeds = .error cause ↔ Refused seeds cause := by
  rw [check, maxCount]
  by_cases hmany : 16 ≤ seeds.length
  · rw [if_pos hmany]
    constructor
    · intro h
      cases h
      exact .number hmany
    · intro h
      cases h with
      | number => rfl
      | length hfew => exact absurd hmany (Nat.not_le_of_lt hfew)
  · rw [if_neg hmany, checkLengths_eq_error_iff]
    constructor
    · rintro ⟨front, seed, back, rfl, hfront, hseed, rfl⟩
      rw [Nat.zero_add]
      exact .length (Nat.lt_of_not_le hmany) hfront hseed
    · intro h
      cases h with
      | number hnumber => exact absurd hnumber hmany
      | length _ hfront hseed => exact ⟨_, _, _, rfl, hfront, hseed, by rw [Nat.zero_add]⟩

theorem Refused.ne_noValidAddress {seeds : List Bytes} {cause : CodecError}
    (h : Refused seeds cause) : cause ≠ .noValidAddress := by
  cases h <;> nofun

theorem Refused.ne_addressOnCurve {seeds : List Bytes} {cause : CodecError} (bump : UInt8)
    (h : Refused seeds cause) : cause ≠ .addressOnCurve bump := by
  cases h <;> nofun

end Seeds

namespace Scheme

theorem mem_bumps (bump : UInt8) : bump ∈ bumps := by
  refine List.mem_map.mpr ⟨bump.toNat, ?_, UInt8.ofNat_toNat⟩
  rw [List.mem_reverse, List.mem_range]
  exact bump.toNat_lt

/-- The search starts at 255 and ends at 0. -/
theorem pairwise_bumps : bumps.Pairwise (· > ·) := by
  rw [bumps, List.pairwise_map, List.pairwise_reverse]
  refine List.pairwise_lt_range.imp_of_mem ?_
  intro low high hlow hhigh hlt
  rw [List.mem_range] at hlow hhigh
  rw [gt_iff_lt, UInt8.lt_iff_toNat_lt, UInt8.toNat_ofNat', UInt8.toNat_ofNat']
  omega

variable {scheme : Scheme} {seeds : List Bytes} {program address : Address} {bump : UInt8}
  {cause : CodecError}

theorem search_eq_none_iff {bumps : List UInt8} :
    scheme.search seeds program bumps = none ↔
      ∀ bump ∈ bumps, scheme.onCurve (scheme.candidate seeds bump program) = true := by
  induction bumps with
  | nil => exact iff_of_true rfl nofun
  | cons first rest ih =>
      rw [search, List.forall_mem_cons]
      by_cases hcurve : scheme.onCurve (scheme.candidate seeds first program) = true
      · rw [if_pos hcurve, ih, and_iff_right hcurve]
      · rw [if_neg hcurve]
        constructor
        · intro h
          cases h
        · intro h
          exact absurd h.1 hcurve

/-- A search through descending bumps ends at the highest one off the curve. -/
theorem search_eq_some_iff {bumps : List UInt8} (hsorted : bumps.Pairwise (· > ·)) :
    scheme.search seeds program bumps = some (address, bump) ↔
      bump ∈ bumps ∧ scheme.candidate seeds bump program = address ∧
        scheme.onCurve address = false ∧
        ∀ higher ∈ bumps, bump < higher →
          scheme.onCurve (scheme.candidate seeds higher program) = true := by
  induction bumps with
  | nil => exact iff_of_false nofun fun h => absurd h.1 List.not_mem_nil
  | cons first rest ih =>
      obtain ⟨hfirst, hrest⟩ := List.pairwise_cons.mp hsorted
      rw [search]
      by_cases hcurve : scheme.onCurve (scheme.candidate seeds first program) = true
      · rw [if_pos hcurve, ih hrest, List.forall_mem_cons]
        constructor
        · rintro ⟨hmem, hcandidate, hoff, hhigher⟩
          exact ⟨List.mem_cons_of_mem _ hmem, hcandidate, hoff, fun _ => hcurve, hhigher⟩
        · rintro ⟨hmem, hcandidate, hoff, -, hhigher⟩
          refine ⟨?_, hcandidate, hoff, hhigher⟩
          rcases List.mem_cons.mp hmem with rfl | hlater
          · rw [hcandidate, hoff] at hcurve
            cases hcurve
          · exact hlater
      · rw [if_neg hcurve]
        have hoff := eq_false_of_ne_true hcurve
        constructor
        · intro h
          cases h
          refine ⟨List.mem_cons_self, rfl, hoff, ?_⟩
          intro higher hmem hlt
          rcases List.mem_cons.mp hmem with rfl | hlater
          · exact absurd hlt (UInt8.lt_irrefl _)
          · exact absurd (hfirst higher hlater) (UInt8.lt_asymm hlt)
        · rintro ⟨hmem, rfl, -, hhigher⟩
          rcases List.mem_cons.mp hmem with rfl | hlater
          · rfl
          · exact absurd (hhigher first List.mem_cons_self (hfirst bump hlater)) hcurve

theorem create_eq_ok_iff :
    scheme.create seeds bump program = .ok address ↔
      Seeds.check seeds = .ok () ∧ scheme.candidate seeds bump program = address ∧
        scheme.onCurve address = false := by
  rw [create, bind_eq_ok_iff]
  constructor
  · rintro ⟨⟨⟩, hcheck, h⟩
    refine ⟨hcheck, ?_⟩
    by_cases hcurve : scheme.onCurve (scheme.candidate seeds bump program) = true
    · rw [if_pos hcurve] at h
      cases h
    · rw [if_neg hcurve] at h
      cases h
      exact ⟨rfl, eq_false_of_ne_true hcurve⟩
  · rintro ⟨hcheck, rfl, hoff⟩
    refine ⟨(), hcheck, ?_⟩
    rw [if_neg (by rw [hoff]; nofun)]
    rfl

theorem create_of_check (h : Seeds.check seeds = .error cause) (bump : UInt8) :
    scheme.create seeds bump program = .error cause := by
  rw [create, h]
  rfl

theorem create_eq_addressOnCurve_iff :
    scheme.create seeds bump program = .error (.addressOnCurve bump) ↔
      Seeds.check seeds = .ok () ∧
        scheme.onCurve (scheme.candidate seeds bump program) = true := by
  cases hcheck : Seeds.check seeds with
  | error cause =>
      rw [create_of_check hcheck]
      have hne := (Seeds.check_eq_error_iff.mp hcheck).ne_addressOnCurve bump
      exact iff_of_false (fun h => hne (Except.error.inj h)) nofun
  | ok =>
      rw [create, hcheck, and_iff_right rfl]
      by_cases hcurve : scheme.onCurve (scheme.candidate seeds bump program) = true
      · exact iff_of_true (if_pos hcurve) hcurve
      · refine iff_of_false ?_ hcurve
        change (if _ then _ else _ : Except CodecError Address) ≠ _
        rw [if_neg hcurve]
        nofun

theorem find_of_check (h : Seeds.check seeds = .error cause) :
    scheme.find seeds program = .error cause := by
  rw [find, h]
  rfl

theorem find_eq_elim (h : Seeds.check seeds = .ok ()) :
    scheme.find seeds program =
      (scheme.search seeds program bumps).elim (.error .noValidAddress) .ok := by
  rw [find, h]
  cases scheme.search seeds program bumps <;> rfl

theorem find_eq_error_iff :
    scheme.find seeds program = .error cause ↔
      Seeds.check seeds = .error cause ∨
        Seeds.check seeds = .ok () ∧ scheme.search seeds program bumps = none ∧
          cause = .noValidAddress := by
  cases hcheck : Seeds.check seeds with
  | error limit =>
      rw [find_of_check hcheck, Except.error.injEq, Except.error.injEq]
      constructor
      · exact .inl
      · rintro (h | ⟨h, -⟩)
        · exact h
        · cases h
  | ok =>
      have hlimit : ¬ (Except.ok () : Except CodecError Unit) = .error cause := by
        intro h
        cases h
      rw [or_iff_right hlimit, and_iff_right rfl, find_eq_elim hcheck]
      cases scheme.search seeds program bumps with
      | some found => simp
      | none =>
          rw [Option.elim_none, Except.error.injEq, and_iff_right rfl]
          exact eq_comm

/-- The search for an address is told by what the single bumps give: it finds the highest bump that
gives an address, fails if all bumps give points of the curve, and otherwise refuses the seeds as
every bump does. -/
theorem find_iff_create (scheme : Scheme) (seeds : List Bytes) (program : Address) :
    (∀ address bump, scheme.find seeds program = .ok (address, bump) ↔
      scheme.create seeds bump program = .ok address ∧
        ∀ higher, bump < higher →
          scheme.create seeds higher program = .error (.addressOnCurve higher)) ∧
    (scheme.find seeds program = .error .noValidAddress ↔
      ∀ bump, scheme.create seeds bump program = .error (.addressOnCurve bump)) ∧
    (∀ cause, scheme.find seeds program = .error cause → cause ≠ .noValidAddress →
      Seeds.Refused seeds cause) ∧
    ∀ cause, Seeds.Refused seeds cause → scheme.find seeds program = .error cause ∧
      ∀ bump, scheme.create seeds bump program = .error cause := by
  refine ⟨?_, ?_, ?_, ?_⟩
  · intro address bump
    rw [find_eq_ok_iff, search_eq_some_iff pairwise_bumps, create_eq_ok_iff]
    simp only [create_eq_addressOnCurve_iff]
    constructor
    · rintro ⟨hcheck, -, hcandidate, hoff, hhigher⟩
      refine ⟨⟨hcheck, hcandidate, hoff⟩, ?_⟩
      intro higher hlt
      exact ⟨hcheck, hhigher higher (mem_bumps _) hlt⟩
    · rintro ⟨⟨hcheck, hcandidate, hoff⟩, hhigher⟩
      exact ⟨hcheck, mem_bumps _, hcandidate, hoff, fun higher _ hlt => (hhigher higher hlt).2⟩
  · rw [find_eq_error_iff, search_eq_none_iff]
    simp only [create_eq_addressOnCurve_iff]
    constructor
    · rintro (hlimit | ⟨hcheck, hcurve, -⟩)
      · exact absurd rfl (Seeds.check_eq_error_iff.mp hlimit).ne_noValidAddress
      · exact fun bump => ⟨hcheck, hcurve bump (mem_bumps _)⟩
    · intro h
      exact .inr ⟨(h 0).1, fun bump _ => (h bump).2, trivial⟩
  · intro cause h hne
    rcases find_eq_error_iff.mp h with hlimit | ⟨-, -, hcause⟩
    · exact Seeds.check_eq_error_iff.mp hlimit
    · exact absurd hcause hne
  · intro cause hrefused
    have hlimit := Seeds.check_eq_error_iff.mpr hrefused
    exact ⟨find_of_check hlimit, create_of_check hlimit⟩

/-- Where all addresses are on the curve no bump is left, and sixteen seeds are refused for their
number although each is too long as well. -/
theorem find_iff_create_none_left :
    (⟨standard.hash, fun _ => true⟩ : Scheme).find [] Programs.vault = .error .noValidAddress ∧
      standard.find (List.replicate 16 (Bytes.zeros 33)) Programs.vault =
        .error (.tooManySeeds 16 15) := by
  obtain ⟨-, hnone, -, -⟩ := find_iff_create ⟨standard.hash, fun _ => true⟩ [] Programs.vault
  obtain ⟨-, -, -, hrefused⟩ :=
    find_iff_create standard (List.replicate 16 (Bytes.zeros 33)) Programs.vault
  exact ⟨hnone.mpr fun _ => rfl, (hrefused _ (.number (by decide))).1⟩

end Scheme

end VaultWire
