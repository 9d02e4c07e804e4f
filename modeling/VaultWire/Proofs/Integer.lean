import Mathlib.Data.Nat.Digits.Lemmas
import VaultWire.Proofs.Except
import VaultWire.Proofs.LittleEndian

/-!
# Integers and strings of bytes

The integers from zero up to `256 ^ width` and the strings of `width` bytes determine each other. All
other integers are refused, each for one cause. Which of them are too large can be told without the
power, from the count of their digits in base 256; what is written are these digits, filled up with
zeros.
-/

namespace VaultWire

namespace LittleEndian

theorem decode_eq_ofDigits (bytes : Bytes) :
    decode bytes = Nat.ofDigits 256 (bytes.map UInt8.toNat) := by
  induction bytes with
  | nil => rfl
  | cons b rest ih => rw [decode, ih, List.map_cons, Nat.ofDigits_cons]

/-- Bytes are the digits of the number that they stand for, filled up with zeros. -/
theorem map_toNat_eq_digitsAppend (bytes : Bytes) :
    bytes.map UInt8.toNat = Nat.digitsAppend 256 bytes.length (decode bytes) := by
  have hdigits : (bytes.map UInt8.toNat).length = bytes.length ∧
      ∀ digit ∈ bytes.map UInt8.toNat, digit < 256 := by
    refine ⟨List.length_map _, ?_⟩
    intro digit hdigit
    obtain ⟨byte, -, rfl⟩ := List.mem_map.mp hdigit
    exact byte.toNat_lt
  have hinverse := (Nat.setInvOn_digitsAppend_ofDigits (by decide) bytes.length).1 hdigits
  rw [decode_eq_ofDigits, hinverse]

theorem encode_eq_digitsAppend {width n : Nat} (h : n < 256 ^ width) :
    encode width n = (Nat.digitsAppend 256 width n).map UInt8.ofNat := by
  have hdigits := map_toNat_eq_digitsAppend (encode width n)
  rw [length_encode, decode_encode_of_lt h] at hdigits
  rw [← hdigits, List.map_map]
  exact (List.map_id'' (fun byte => UInt8.ofNat_toNat) _).symm

theorem getElem_encode {width n i : Nat} (h : i < (encode width n).length) :
    (encode width n)[i].toNat = n / 256 ^ i % 256 := by
  simp [encode_eq_map]

end LittleEndian

namespace Integer

variable {value : Int} {width : Nat} {bytes : Bytes} {cause : CodecError}

theorem encode_eq_ok_iff :
    encode value width = .ok bytes ↔ bytes.length = width ∧ (decode bytes : Int) = value := by
  cases value with
  | negSucc n => exact iff_of_false nofun fun h => absurd h.2 (by omega)
  | ofNat n =>
      rw [Int.ofNat_eq_natCast, encode_natCast, Int.natCast_inj, decode]
      constructor
      · intro h
        split_ifs at h with hlt
        cases h
        exact ⟨LittleEndian.length_encode width n, LittleEndian.decode_encode_of_lt hlt⟩
      · rintro ⟨rfl, rfl⟩
        rw [if_pos (LittleEndian.decode_lt bytes), LittleEndian.encode_decode]

theorem encode_natCast_eq_error_iff {n : Nat} :
    encode n width = .error cause ↔ 256 ^ width ≤ n ∧ cause = .overflow (toString n) width := by
  rw [encode_natCast, ite_eq_error_iff, Nat.not_lt]

/-- A negative integer is never too large, so the two causes exclude each other. -/
theorem encode_eq_error_iff :
    encode value width = .error cause ↔
      value < 0 ∧ cause = .range (toString value) ∨
      256 ^ width ≤ value ∧ cause = .overflow (toString value) width := by
  cases value with
  | negSucc n =>
      have hnegative : Int.negSucc n < 0 := Int.negSucc_lt_zero n
      have hsmall : ¬ (256 : Int) ^ width ≤ Int.negSucc n :=
        Int.not_le.mpr (hnegative.trans_le (pow_nonneg (by decide) width))
      change Except.error (CodecError.range _) = _ ↔ _
      simp [hnegative, hsmall, eq_comm]
  | ofNat n =>
      have hnonneg : ¬ (n : Int) < 0 := Int.not_lt.mpr (Int.natCast_nonneg n)
      have hlarge : (256 : Int) ^ width ≤ n ↔ 256 ^ width ≤ n := by exact_mod_cast Iff.rfl
      rw [Int.ofNat_eq_natCast, encode_natCast_eq_error_iff, hlarge]
      simp only [hnonneg, false_and, false_or]
      rfl

theorem exists_encode_natCast_iff {n width : Nat} :
    (∃ bytes, encode n width = .ok bytes) ↔ n < 256 ^ width := by
  simp only [encode_natCast]
  exact exists_ite_eq_ok_iff

/-- The comparison with the power is a comparison of the count of digits with the width. -/
theorem encode_natCast_eq_digits (n width : Nat) :
    encode n width =
      if (Nat.digits 256 n).length ≤ width then
        .ok ((Nat.digits 256 n).map UInt8.ofNat ++ Bytes.zeros (width - (Nat.digits 256 n).length))
      else .error (.overflow (toString n) width) := by
  rw [encode_natCast]
  by_cases h : n < 256 ^ width
  · rw [if_pos h, if_pos ((Nat.digits_length_le_iff (by decide) n).mpr h),
      LittleEndian.encode_eq_digitsAppend h, Nat.digitsAppend, List.map_append, List.map_replicate]
    rfl
  · rw [if_neg h, if_neg (mt (Nat.digits_length_le_iff (by decide) n).mp h)]

/-- Integers below `256 ^ width` and strings of `width` bytes are each other's image. An integer is
refused exactly if it is negative or not below this bound; else the byte at place `i` is the digit of
weight `256 ^ i`, and the bytes are read back as the integer. Every string of bytes is the one
written for its number. The bound is kept by counting digits, of which zero has none. -/
theorem encode_inverse_decode :
    (∀ (value : Int) (width : Nat),
      (∀ cause, encode value width = .error cause ↔
        value < 0 ∧ cause = .range (toString value) ∨
        256 ^ width ≤ value ∧ cause = .overflow (toString value) width) ∧
      (0 ≤ value → value < 256 ^ width → ∃ bytes, encode value width = .ok bytes ∧
        bytes.length = width ∧
        (∀ i (h : i < bytes.length), (bytes[i].toNat : Int) = value / 256 ^ i % 256) ∧
        (decode bytes : Int) = value)) ∧
    (∀ bytes, decode bytes < 256 ^ bytes.length ∧
      encode (decode bytes) bytes.length = .ok bytes) ∧
    ∀ n width : Nat, encode n width =
      if (Nat.digits 256 n).length ≤ width then
        .ok ((Nat.digits 256 n).map UInt8.ofNat ++ Bytes.zeros (width - (Nat.digits 256 n).length))
      else .error (.overflow (toString n) width) := by
  refine ⟨?_, ?_, encode_natCast_eq_digits⟩
  · intro value width
    refine ⟨fun cause => encode_eq_error_iff, ?_⟩
    intro hnonneg hbound
    obtain ⟨n, rfl⟩ := Int.eq_ofNat_of_zero_le hnonneg
    have hlt : n < 256 ^ width := by exact_mod_cast hbound
    refine ⟨LittleEndian.encode width n, (encode_natCast n width).trans (if_pos hlt),
      LittleEndian.length_encode width n, ?_, ?_⟩
    · intro i h
      rw [LittleEndian.getElem_encode h]
      push_cast
      rfl
    · exact congrArg Nat.cast (LittleEndian.decode_encode_of_lt hlt)
  · intro bytes
    exact ⟨LittleEndian.decode_lt bytes, encode_eq_ok_iff.mpr ⟨rfl, rfl⟩⟩

/-- A number with zeros above it, and at width zero the number zero alone. -/
theorem encode_inverse_decode_edges :
    (∃ bytes, encode 1000 4 = .ok bytes ∧ bytes.length = 4 ∧ (decode bytes : Int) = 1000) ∧
      encode 1000 4 = .ok [232, 3, 0, 0] ∧
      encode 0 0 = .ok [] ∧
      encode 1 0 = .error (.overflow "1" 0) ∧
      encode (-1) 0 = .error (.range "-1") := by
  obtain ⟨houtcome, hbytes, -⟩ := encode_inverse_decode
  refine ⟨?_, (hbytes [232, 3, 0, 0]).2, (hbytes []).2, ?_, ?_⟩
  · obtain ⟨bytes, hencode, hlength, -, hdecode⟩ :=
      (houtcome 1000 4).2 (by decide) (by decide)
    exact ⟨bytes, hencode, hlength, hdecode⟩
  · exact ((houtcome 1 0).1 _).mpr (.inr ⟨by decide, by decide⟩)
  · exact ((houtcome (-1) 0).1 _).mpr (.inl ⟨by decide, by decide⟩)

end Integer

end VaultWire
