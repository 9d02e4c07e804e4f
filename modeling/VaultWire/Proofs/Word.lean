import VaultWire.Proofs.Integer

/-!
# Words both ways

The word in a byte string is found in two ways: in word arithmetic, byte after byte, or as a number of
any size that is narrowed afterwards. Both give the same word from a string of exactly the word's
width, and only the first one looks at the length. Narrowing takes the numbers that fit into as many
bytes as the word has.
-/

namespace VaultWire.Word

variable {α : Type} [Word α] {bytes : Bytes} {n : Nat} {cause : CodecError}

theorem narrow_eq_ok_iff {w : α} : narrow n = .ok w ↔ toNat w = n := by
  constructor
  · intro h
    unfold narrow at h
    split_ifs at h with hlt
    cases h
    rw [toNat_ofNat, Nat.mod_eq_of_lt hlt]
  · rintro rfl
    exact narrow_toNat w

theorem narrow_eq_error_iff :
    (narrow n : Except CodecError α) = .error cause ↔
      256 ^ width α ≤ n ∧ cause = .overflow (toString n) (width α) := by
  rw [narrow, ite_eq_error_iff, Nat.not_lt]

theorem exists_narrow_iff : (∃ w : α, narrow n = .ok w) ↔ n < 256 ^ width α := by
  simp only [narrow_eq_ok_iff]
  constructor
  · rintro ⟨w, rfl⟩
    exact toNat_lt w
  · exact exists_toNat_eq

/-- Word arithmetic keeps the number of the bytes up to multiples of the word's bound. -/
theorem toNat_foldr_shiftIn (bytes : Bytes) :
    toNat (bytes.foldr shiftIn (ofNat 0 : α)) = LittleEndian.decode bytes % 256 ^ width α := by
  induction bytes with
  | nil => exact toNat_ofNat 0
  | cons b rest ih =>
      rw [List.foldr_cons, toNat_shiftIn, ih, LittleEndian.decode]
      exact ((Nat.mod_modEq _ _).mul_left 256).add_left b.toNat

theorem decode_eq_error_iff :
    (decode bytes : Except CodecError α) = .error cause ↔
      bytes.length ≠ width α ∧ cause = .schemaLength (width α) bytes.length :=
  ite_eq_error_iff

theorem exists_decode_of_length (h : bytes.length = width α) :
    ∃ w : α, decode bytes = .ok w ∧ toNat w = Integer.decode bytes := by
  refine ⟨_, if_pos h, ?_⟩
  have hlt := LittleEndian.decode_lt bytes
  rw [h] at hlt
  rw [toNat_foldr_shiftIn, Nat.mod_eq_of_lt hlt, Integer.decode]

/-- For words of every width, those of one, four and eight bytes among them: reading is refused for a
length that is not the width and for nothing else, and otherwise gives the word to which the number of
the bytes is narrowed. A number is narrowed to the word with this number if it is below the word's
bound, and is refused otherwise, as it is when it is to be written in as many bytes. -/
theorem decode_agrees_with_narrow :
    (width UInt8 = 1 ∧ width UInt32 = 4 ∧ width UInt64 = 8) ∧
    ∀ (α : Type) [Word α],
      (∀ bytes,
        (∀ cause, (decode bytes : Except CodecError α) = .error cause ↔
          bytes.length ≠ width α ∧ cause = .schemaLength (width α) bytes.length) ∧
        (bytes.length = width α → ∃ w : α, decode bytes = .ok w ∧
          narrow (Integer.decode bytes) = .ok w ∧ toNat w = Integer.decode bytes)) ∧
      ∀ n : Nat,
        (∀ w : α, narrow n = .ok w ↔ n < 256 ^ width α ∧ toNat w = n) ∧
        ((∃ w : α, narrow n = .ok w) ↔ n < 256 ^ width α) ∧
        (∀ cause, (narrow n : Except CodecError α) = .error cause ↔
          256 ^ width α ≤ n ∧ cause = .overflow (toString n) (width α)) ∧
        ((∃ w : α, narrow n = .ok w) ↔ ∃ bytes, Integer.encode n (width α) = .ok bytes) := by
  refine ⟨⟨rfl, rfl, rfl⟩, ?_⟩
  intro α _
  constructor
  · intro bytes
    refine ⟨fun cause => decode_eq_error_iff, ?_⟩
    intro hlength
    obtain ⟨w, hdecode, hnumber⟩ := exists_decode_of_length (α := α) hlength
    exact ⟨w, hdecode, narrow_eq_ok_iff.mpr hnumber, hnumber⟩
  · intro n
    refine ⟨?_, exists_narrow_iff, fun cause => narrow_eq_error_iff, ?_⟩
    · intro w
      rw [narrow_eq_ok_iff, iff_and_self]
      rintro rfl
      exact toNat_lt w
    · exact exists_narrow_iff.trans Integer.exists_encode_natCast_iff.symm

/-- The largest word of eight bytes is found both ways, and without its last byte it is refused. The
largest number of one byte is narrowed, and the first one that needs more than four bytes is not. -/
theorem decode_agrees_with_narrow_bounds :
    (∃ w : UInt64, decode (List.replicate 8 255) = .ok w ∧
        narrow (Integer.decode (List.replicate 8 255)) = .ok w ∧ w.toNat = 256 ^ 8 - 1) ∧
      (decode (List.replicate 7 255) : Except CodecError UInt64) = .error (.schemaLength 8 7) ∧
      (narrow 255 : Except CodecError UInt8) = .ok 255 ∧
      (narrow (256 ^ 4) : Except CodecError UInt32) = .error (.overflow "4294967296" 4) := by
  obtain ⟨-, hword⟩ := decode_agrees_with_narrow
  refine ⟨?_, ?_, ?_, ?_⟩
  · obtain ⟨w, hdecode, hnarrow, hnumber⟩ := ((hword UInt64).1 (List.replicate 8 255)).2 rfl
    exact ⟨w, hdecode, hnarrow, hnumber.trans (by decide)⟩
  · exact (((hword UInt64).1 (List.replicate 7 255)).1 _).mpr ⟨by decide, rfl⟩
  · exact (((hword UInt8).2 255).1 255).mpr ⟨by decide, rfl⟩
  · exact (((hword UInt32).2 (256 ^ 4)).2.2.1 _).mpr ⟨by decide, by decide⟩

end VaultWire.Word
