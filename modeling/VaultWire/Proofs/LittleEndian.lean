import Mathlib.Algebra.BigOperators.Ring.Finset
import Mathlib.Tactic.Ring
import VaultWire.Integer
import VaultWire.Word

/-!
# Numbers and their bytes

Writing a number in `width` bytes and reading `width` bytes as a number undo each other between the
numbers below `256 ^ width` and the strings of `width` bytes. No bytes at all are included: they
stand for zero, the only number below one.
-/

namespace VaultWire.LittleEndian

theorem decode_lt (bytes : Bytes) : decode bytes < 256 ^ bytes.length := by
  induction bytes with
  | nil => exact Nat.one_pos
  | cons b rest ih =>
      have hb := b.toNat_lt
      rw [decode, List.length_cons, pow_succ]
      omega

theorem decode_encode (width n : Nat) : decode (encode width n) = n % 256 ^ width := by
  induction width generalizing n with
  | zero => simp [encode, decode, Nat.mod_one]
  | succ width ih =>
      have hdigit : (UInt8.ofNat (n % 256)).toNat = n % 256 := by simp
      rw [encode, decode, ih, hdigit, pow_succ', Nat.mod_mul]

theorem decode_encode_of_lt {width n : Nat} (h : n < 256 ^ width) :
    decode (encode width n) = n := by
  rw [decode_encode, Nat.mod_eq_of_lt h]

/-- In place `i` stands the digit of weight `256 ^ i`. -/
theorem encode_eq_map (width n : Nat) :
    encode width n = (List.range width).map fun i => UInt8.ofNat (n / 256 ^ i % 256) := by
  induction width generalizing n with
  | zero => rfl
  | succ width ih =>
      rw [encode, ih, List.range_succ_eq_map, List.map_cons, List.map_map, pow_zero, Nat.div_one]
      refine congrArg _ (List.map_congr_left fun i _ => ?_)
      rw [Function.comp_apply, Nat.div_div_eq_div_mul, Nat.succ_eq_add_one, pow_succ']

/-- High zero bytes come back, for the width is the count of the bytes that were read. -/
theorem encode_decode (bytes : Bytes) : encode bytes.length (decode bytes) = bytes := by
  induction bytes with
  | nil => rfl
  | cons b rest ih =>
      have hb := b.toNat_lt
      have hlow : (b.toNat + 256 * decode rest) % 256 = b.toNat := by omega
      have hhigh : (b.toNat + 256 * decode rest) / 256 = decode rest := by omega
      rw [List.length_cons, decode, encode, hlow, hhigh, ih, UInt8.ofNat_toNat]

/-- The refusal of left-over digits is the comparison with `256 ^ width`. -/
theorem encode?_eq (width n : Nat) :
    encode? width n = if n < 256 ^ width then some (encode width n) else none := by
  induction width generalizing n with
  | zero =>
      rw [encode?, encode, pow_zero]
      exact if_congr (Nat.lt_one_iff.symm) rfl rfl
  | succ width ih =>
      have hdiv : n / 256 < 256 ^ width ↔ n < 256 ^ (width + 1) := by
        rw [Nat.div_lt_iff_lt_mul (by decide), pow_succ]
      rw [encode?, ih, encode]
      by_cases h : n / 256 < 256 ^ width
      · rw [if_pos h, if_pos (hdiv.mp h), Option.map_some]
      · rw [if_neg h, if_neg (mt hdiv.mpr h), Option.map_none]

theorem decode_eq_sum (bytes : Bytes) :
    decode bytes = ∑ i ∈ Finset.range bytes.length, (bytes.getD i 0).toNat * 256 ^ i := by
  induction bytes with
  | nil => rfl
  | cons b rest ih =>
      rw [decode, List.length_cons, Finset.sum_range_succ', ih, Finset.mul_sum, add_comm]
      congr 1
      · refine Finset.sum_congr rfl fun i _ => ?_
        rw [List.getD_cons_succ, pow_succ]
        ring
      · simp

end VaultWire.LittleEndian

namespace VaultWire.Integer

theorem encode_natCast (n width : Nat) :
    encode n width =
      if n < 256 ^ width then .ok (LittleEndian.encode width n)
      else .error (.overflow (toString n) width) := by
  have hcast : ((n : Nat) : Int) = .ofNat n := rfl
  rw [hcast, encode, LittleEndian.encode?_eq]
  by_cases h : n < 256 ^ width
  · simp only [if_pos h]
  · simp only [if_neg h]

end VaultWire.Integer

namespace VaultWire.Word

variable {α : Type} [Word α]

theorem narrow_toNat (w : α) : narrow (toNat w) = .ok w := by
  rw [narrow, if_pos (toNat_lt w), ofNat_toNat]

theorem exists_toNat_eq {n : Nat} (h : n < 256 ^ width α) : ∃ w : α, toNat w = n :=
  ⟨ofNat n, by rw [toNat_ofNat, Nat.mod_eq_of_lt h]⟩

end VaultWire.Word
