import VaultWire.Address.Purpose
import VaultWire.Proofs.Address.Derivation
import VaultWire.Proofs.LittleEndian

/-!
# Separate messages for separate accounts

Seeds are hashed one after the other with nothing between them, so seed lists with one concatenation
name one address. The derived accounts of the vault program are kept apart all the same: the seeds
of each kind have a total width of their own, and the variable parts of a kind have fixed places.
Two of these accounts can have one address only where SHA-256 has a collision.
-/

namespace VaultWire

/-- Different messages with one hash. -/
def Sha256.Collides (message other : Bytes) : Prop :=
  message ≠ other ∧ Sha256.hash message = Sha256.hash other

namespace Scheme

variable {s t : List Bytes} {i j : UInt8} {p q : Address}

/-- The scheme that hashes a given message to one address and all others to another. -/
def singling (message : Bytes) : Scheme where
  hash other := if other = message then .zero else .ofNat 1
  onCurve _ := false

/-- Two candidates are the same whatever the hash is exactly if their messages are the same. -/
theorem candidate_eq_iff :
    (∀ scheme : Scheme, scheme.candidate s i p = scheme.candidate t j q) ↔
      Seeds.message s i p = Seeds.message t j q := by
  constructor
  · intro h
    by_contra hne
    have hhash : (if Seeds.message s i p = Seeds.message t j q then Address.zero else .ofNat 1) =
        if Seeds.message t j q = Seeds.message t j q then Address.zero else .ofNat 1 :=
      h (singling (Seeds.message t j q))
    rw [if_neg hne, if_pos rfl] at hhash
    exact absurd hhash (by decide)
  · intro h scheme
    rw [candidate, candidate, h]

variable {scheme : Scheme} {program : Address}

theorem candidate_congr (h : s.flatten = t.flatten) (bump : UInt8) :
    scheme.candidate s bump program = scheme.candidate t bump program := by
  rw [candidate, candidate, Seeds.message_eq_iff.mpr ⟨h, rfl, rfl⟩]

theorem search_congr (h : s.flatten = t.flatten) (bumps : List UInt8) :
    scheme.search s program bumps = scheme.search t program bumps := by
  induction bumps with
  | nil => rfl
  | cons first rest ih => rw [search, search, candidate_congr h, ih]

theorem create_congr (hs : Seeds.check s = .ok ()) (ht : Seeds.check t = .ok ())
    (h : s.flatten = t.flatten) (bump : UInt8) :
    scheme.create s bump program = scheme.create t bump program := by
  rw [create, create, hs, ht, candidate_congr h]

theorem find_congr (hs : Seeds.check s = .ok ()) (ht : Seeds.check t = .ok ())
    (h : s.flatten = t.flatten) : scheme.find s program = scheme.find t program := by
  rw [find, find, hs, ht, search_congr h]

end Scheme

theorem LittleEndian.encode_injective {a b : UInt64}
    (h : encode 8 a.toNat = encode 8 b.toNat) : a = b := by
  have hread := congrArg decode h
  rw [decode_encode_of_lt a.toNat_lt, decode_encode_of_lt b.toNat_lt] at hread
  exact UInt64.toNat_inj.mp hread

namespace Purpose

/-- The message that is hashed for an account with a bump. -/
def message (purpose : Purpose) (bump : UInt8) : Bytes :=
  Seeds.message purpose.seeds bump purpose.deriver

/-- The bytes that the seeds take together. -/
def seedWidth : Purpose → Nat
  | config .. => 11
  | vault .. => 37
  | escrow .. => 46
  | associatedToken .. => 96

theorem length_seeds (purpose : Purpose) : purpose.seeds.flatten.length = purpose.seedWidth := by
  cases purpose <;>
    simp [seeds, seedWidth, configSeed, vaultSeed, escrowSeed, Address.length_bytes]

theorem vault_seeds_injective {program program' owner owner' : Address}
    (h : (vault program owner).seeds.flatten = (vault program' owner').seeds.flatten) :
    owner = owner' := by
  simp only [seeds, List.flatten_cons, List.flatten_nil, List.append_nil] at h
  exact Address.eq_of_bytes_eq (List.append_cancel_left h)

theorem escrow_seeds_injective {program program' maker maker' : Address} {id id' : UInt64}
    (h : (escrow program maker id).seeds.flatten = (escrow program' maker' id').seeds.flatten) :
    maker = maker' ∧ id = id' := by
  simp only [seeds, List.flatten_cons, List.flatten_nil, List.append_nil] at h
  have htail := List.append_cancel_left h
  obtain ⟨hmaker, hid⟩ :=
    List.append_inj htail (maker.length_bytes.trans maker'.length_bytes.symm)
  exact ⟨Address.eq_of_bytes_eq hmaker, LittleEndian.encode_injective hid⟩

theorem associatedToken_seeds_injective
    {owner owner' mint mint' tokenProgram tokenProgram' : Address}
    (h : (associatedToken owner mint tokenProgram).seeds.flatten =
      (associatedToken owner' mint' tokenProgram').seeds.flatten) :
    owner = owner' ∧ mint = mint' ∧ tokenProgram = tokenProgram' := by
  simp only [seeds, List.flatten_cons, List.flatten_nil, List.append_nil] at h
  obtain ⟨howner, htail⟩ := List.append_inj h (owner.length_bytes.trans owner'.length_bytes.symm)
  obtain ⟨hprogram, hmint⟩ :=
    List.append_inj htail (tokenProgram.length_bytes.trans tokenProgram'.length_bytes.symm)
  exact ⟨Address.eq_of_bytes_eq howner, Address.eq_of_bytes_eq hmint,
    Address.eq_of_bytes_eq hprogram⟩

/-- An account is told by its seeds, run together, and the program that derives it. -/
theorem eq_of_seeds_eq {a b : Purpose} (hseeds : a.seeds.flatten = b.seeds.flatten)
    (hderiver : a.deriver = b.deriver) : a = b := by
  have hwidth : a.seedWidth = b.seedWidth := by
    rw [← length_seeds, ← length_seeds, hseeds]
  -- Two kinds are told apart by the width alone, which leaves the accounts of one kind.
  cases a <;> cases b <;> try cases hwidth
  case config.config =>
    exact congrArg config hderiver
  case vault.vault =>
    rw [vault_seeds_injective hseeds]
    exact congrArg (vault · _) hderiver
  case escrow.escrow =>
    obtain ⟨rfl, rfl⟩ := escrow_seeds_injective hseeds
    exact congrArg (escrow · _ _) hderiver
  case associatedToken.associatedToken =>
    obtain ⟨rfl, rfl, rfl⟩ := associatedToken_seeds_injective hseeds
    rfl

theorem message_ne {a b : Purpose} (h : a ≠ b) (i j : UInt8) : a.message i ≠ b.message j := by
  intro hmessage
  obtain ⟨hseeds, -, hderiver⟩ := Seeds.message_eq_iff.mp hmessage
  exact h (eq_of_seeds_eq hseeds hderiver)

theorem address_eq_ok_iff {purpose : Purpose} {address : Address} :
    purpose.address = .ok address ↔ ∃ bump, purpose.find = .ok (address, bump) := by
  change Except.map (·.1) purpose.find = _ ↔ _
  rw [map_eq_ok_iff]
  constructor
  · rintro ⟨⟨found, bump⟩, hfind, rfl⟩
    exact ⟨bump, hfind⟩
  · rintro ⟨bump, hfind⟩
    exact ⟨(address, bump), hfind, rfl⟩

theorem hash_of_find {purpose : Purpose} {address : Address} {bump : UInt8}
    (h : purpose.find = .ok (address, bump)) :
    Sha256.hash (purpose.message bump) = address.bytes :=
  congrArg Address.bytes (Scheme.candidate_of_find h)

/-- One address for two accounts comes from a collision. -/
theorem exists_collides_of_address_eq {a b : Purpose} {address : Address} (hne : a ≠ b)
    (ha : a.address = .ok address) (hb : b.address = .ok address) :
    ∃ i j, a.find = .ok (address, i) ∧ b.find = .ok (address, j) ∧
      Sha256.Collides (a.message i) (b.message j) := by
  obtain ⟨i, hi⟩ := address_eq_ok_iff.mp ha
  obtain ⟨j, hj⟩ := address_eq_ok_iff.mp hb
  exact ⟨i, j, hi, hj, message_ne hne i j, (hash_of_find hi).trans (hash_of_find hj).symm⟩

end Purpose

/-- What is hashed for an address: the seeds run together, the bump and the program, each of which
can be told from the message. So the grouping of seeds does not matter, and different accounts of
the vault program never share a message. -/
theorem messages_separate :
    (∀ s t i j p q, ((∀ scheme : Scheme, scheme.candidate s i p = scheme.candidate t j q) ↔
        Seeds.message s i p = Seeds.message t j q) ∧
      (Seeds.message s i p = Seeds.message t j q ↔ s.flatten = t.flatten ∧ i = j ∧ p = q)) ∧
    (∀ (scheme : Scheme) s t program, Seeds.check s = .ok () → Seeds.check t = .ok () →
      s.flatten = t.flatten → scheme.find s program = scheme.find t program ∧
        ∀ bump, scheme.create s bump program = scheme.create t bump program) ∧
    ∀ a b : Purpose, a ≠ b → (∀ i j, a.message i ≠ b.message j) ∧
      ∀ address, a.address = .ok address → b.address = .ok address →
        ∃ i j, a.find = .ok (address, i) ∧ b.find = .ok (address, j) ∧
          Sha256.Collides (a.message i) (b.message j) := by
  refine ⟨?_, ?_, ?_⟩
  · intro s t i j p q
    exact ⟨Scheme.candidate_eq_iff, Seeds.message_eq_iff⟩
  · intro scheme s t program hs ht h
    exact ⟨Scheme.find_congr hs ht h, Scheme.create_congr hs ht h⟩
  · intro a b hne
    exact ⟨Purpose.message_ne hne, fun _ => Purpose.exists_collides_of_address_eq hne⟩

/-- Regrouped seeds find one address; a config and a vault of one program hash apart. -/
theorem messages_separate_regrouped :
    Scheme.standard.find [[1], [2]] Programs.vault = Scheme.standard.find [[1, 2]] Programs.vault ∧
      ∀ i j, (Purpose.config Programs.vault).message i ≠
        (Purpose.vault Programs.vault Address.zero).message j := by
  obtain ⟨-, hregroup, hseparate⟩ := messages_separate
  exact ⟨(hregroup .standard [[1], [2]] [[1, 2]] Programs.vault rfl rfl rfl).1,
    (hseparate (.config Programs.vault) (.vault Programs.vault .zero) nofun).1⟩

end VaultWire
