import Mathlib.Data.List.GetD
import VaultWire.Proofs.Schema.Written

/-!
# Windows

What stands at an offset, in terms of the bytes alone: single bytes, numbers, addresses and labels.
A field that is read has the value that stands in its window, and a value that is written stands
there.
-/

namespace VaultWire

namespace Bytes

def byteAt (raw : Bytes) (offset : Nat) : UInt8 := raw.getD offset 0

def bytesAt (raw : Bytes) (offset width : Nat) : Bytes := (raw.drop offset).take width

/-- The little-endian number of the `width` bytes from `offset` on. -/
def numberAt (raw : Bytes) (offset width : Nat) : Nat :=
  ∑ i ∈ Finset.range width, (byteAt raw (offset + i)).toNat * 256 ^ i

/-- The bytes of the label that starts at `offset`, without the zeros at their end. -/
def labelAt (raw : Bytes) (offset : Nat) : Bytes :=
  ((raw.drop offset).take 32).rdropWhile (· == 0)

variable {raw : Bytes} {offset : Nat}

theorem byteAt_eq_getElem (h : offset < raw.length) :
    byteAt raw offset = raw[offset] := List.getD_eq_getElem _ _ h

theorem window_one (h : offset < raw.length) :
    (raw.drop offset).take 1 = [byteAt raw offset] := by
  rw [List.drop_eq_getElem_cons h, List.take_succ_cons, List.take_zero, byteAt_eq_getElem h]

theorem window_two (h : offset + 2 ≤ raw.length) :
    (raw.drop offset).take 2 = [byteAt raw offset, byteAt raw (offset + 1)] := by
  rw [List.drop_eq_getElem_cons (by omega), List.take_succ_cons, window_one (by omega),
    ← byteAt_eq_getElem]

theorem length_window {width : Nat} (h : offset + width ≤ raw.length) :
    ((raw.drop offset).take width).length = width := by
  rw [List.length_take, List.length_drop]
  omega

theorem decode_window {width : Nat} (h : offset + width ≤ raw.length) :
    LittleEndian.decode ((raw.drop offset).take width) = numberAt raw offset width := by
  rw [LittleEndian.decode_eq_sum, length_window h, numberAt]
  refine Finset.sum_congr rfl fun i hi => ?_
  have hi' : i < width := Finset.mem_range.mp hi
  rw [byteAt, List.getD_eq_getElem?_getD, List.getD_eq_getElem?_getD, List.getElem?_take_of_lt hi',
    List.getElem?_drop]

theorem numberAt_one : numberAt raw offset 1 = (byteAt raw offset).toNat := by
  rw [numberAt, Finset.sum_range_one, pow_zero, Nat.mul_one, Nat.add_zero]

theorem numberAt_lt (raw : Bytes) (offset width : Nat) :
    numberAt raw offset width < 256 ^ width := by
  induction width with
  | zero => exact Nat.one_pos
  | succ width ih =>
      have hbyte := (byteAt raw (offset + width)).toNat_lt
      have hhigh : (byteAt raw (offset + width)).toNat * 256 ^ width ≤ 255 * 256 ^ width :=
        Nat.mul_le_mul_right _ (by omega)
      rw [numberAt, Finset.sum_range_succ, pow_succ']
      rw [numberAt] at ih
      omega

theorem exists_word32 (raw : Bytes) (offset : Nat) :
    ∃ w : UInt32, w.toNat = numberAt raw offset 4 :=
  Word.exists_toNat_eq (α := UInt32) (numberAt_lt raw offset 4)

theorem exists_word64 (raw : Bytes) (offset : Nat) :
    ∃ w : UInt64, w.toNat = numberAt raw offset 8 :=
  Word.exists_toNat_eq (α := UInt64) (numberAt_lt raw offset 8)

theorem decode_word_iff {α : Type} [Word α] {w : α}
    (h : offset + Word.width α ≤ raw.length) :
    (FieldType.uint (Word.width α)).decode ((raw.drop offset).take (Word.width α)) =
      .ok (.word w) ↔ Word.toNat w = numberAt raw offset (Word.width α) := by
  rw [← decode_window h]
  change Except.ok (FieldValue.uint (LittleEndian.decode _)) = Except.ok (.uint (Word.toNat w)) ↔ _
  rw [Except.ok.injEq, FieldValue.uint.injEq]
  exact eq_comm

theorem decode_byte_iff {w : UInt8} (h : offset + 1 ≤ raw.length) :
    (FieldType.uint 1).decode ((raw.drop offset).take 1) = .ok (.word w) ↔
      w = byteAt raw offset := by
  refine (decode_word_iff (α := UInt8) h).trans ?_
  change w.toNat = numberAt raw offset 1 ↔ _
  rw [numberAt_one, UInt8.toNat_inj]

theorem decode_word32_iff {w : UInt32} (h : offset + 4 ≤ raw.length) :
    (FieldType.uint 4).decode ((raw.drop offset).take 4) = .ok (.word w) ↔
      w.toNat = numberAt raw offset 4 :=
  decode_word_iff (α := UInt32) h

theorem decode_word64_iff {w : UInt64} (h : offset + 8 ≤ raw.length) :
    (FieldType.uint 8).decode ((raw.drop offset).take 8) = .ok (.word w) ↔
      w.toNat = numberAt raw offset 8 :=
  decode_word_iff (α := UInt64) h

theorem decode_bool_iff {flag : Bool} (h : offset + 1 ≤ raw.length) :
    FieldType.bool.decode ((raw.drop offset).take 1) = .ok (.bool flag) ↔
      byteAt raw offset ≤ 1 ∧ flag = (byteAt raw offset == 1) := by
  rw [window_one h]
  change (Flag.decode _).map _ = _ ↔ _
  rw [map_eq_ok_iff]
  simp only [FieldValue.bool.injEq, exists_eq_right]
  exact Flag.decode_eq_ok_iff

theorem decode_flag_iff {flag : Bool} (h : offset + 1 ≤ raw.length) :
    FieldType.bool.decode ((raw.drop offset).take 1) = .ok (.bool flag) ↔
      flag.toUInt8 = byteAt raw offset := by
  rw [window_one h]
  change (Flag.decode _).map _ = _ ↔ Flag.encode flag = _
  rw [map_eq_ok_iff]
  simp only [FieldValue.bool.injEq, exists_eq_right]
  constructor
  · exact Flag.encode_of_decode
  · intro hflag
    rw [← hflag, Flag.decode_encode]

theorem decode_status_iff {status : Status} (h : offset + 1 ≤ raw.length) :
    (FieldType.enum Status.table).decode ((raw.drop offset).take 1) =
      .ok (.enum status.symbol) ↔ status.byte = byteAt raw offset := by
  rw [window_one h]
  change (Status.table.decode _).map _ = _ ↔ _
  rw [map_eq_ok_iff]
  simp only [FieldValue.enum.injEq, exists_eq_right]
  exact Status.tabulates.decode_eq_ok_iff

theorem decode_selector_iff {selector : Selector} (h : offset + 1 ≤ raw.length) :
    (FieldType.enum Selector.table).decode ((raw.drop offset).take 1) =
      .ok (.enum selector.symbol) ↔ selector.byte = byteAt raw offset := by
  rw [window_one h]
  change (Selector.table.decode _).map _ = _ ↔ _
  rw [map_eq_ok_iff]
  simp only [FieldValue.enum.injEq, exists_eq_right]
  exact Selector.tabulates.decode_eq_ok_iff

theorem decode_padding_iff (h : offset + 2 ≤ raw.length) :
    (FieldType.padding 2).decode ((raw.drop offset).take 2) = .ok .padding ↔
      byteAt raw offset = 0 ∧ byteAt raw (offset + 1) = 0 := by
  rw [window_two h]
  change (checkPadding _).map _ = _ ↔ _
  rw [map_eq_ok_iff, Unique.exists_iff, and_iff_left rfl]
  refine checkPadding_eq_ok_iff.trans ?_
  simp [zeros]

theorem decode_address_iff {address : Address} :
    FieldType.address.decode ((raw.drop offset).take 32) = .ok (.address address) ↔
      address.bytes = bytesAt raw offset 32 := by
  rw [FieldType.decode_address_eq_ok_iff]
  simp [bytesAt]

theorem decode_label_iff {label : String} :
    (FieldType.text 32).decode ((raw.drop offset).take 32) = .ok (.text label) ↔
      Text.utf8 label = labelAt raw offset := by
  change (Text.decode _).map _ = _ ↔ _
  rw [map_eq_ok_iff]
  simp only [FieldValue.text.injEq, exists_eq_right]
  rw [Text.decode_eq_ok_iff, trimZeros_eq_rdropWhile]
  rfl

theorem take_eq_number_iff {width n : Nat} (hn : n < 256 ^ width)
    (h : offset + width ≤ raw.length) :
    (raw.drop offset).take width = Wire.number width n ↔
      n = numberAt raw offset width := by
  rw [Wire.number, ← LittleEndian.encode_eq_map, ← decode_window h]
  constructor
  · intro hwindow
    rw [hwindow, LittleEndian.decode_encode_of_lt hn]
  · intro hvalue
    have hencode := LittleEndian.encode_decode ((raw.drop offset).take width)
    rwa [length_window h, ← hvalue, eq_comm] at hencode

theorem take_eq_word32_iff {w : UInt32} (h : offset + 4 ≤ raw.length) :
    (raw.drop offset).take 4 = Wire.number 4 w.toNat ↔
      w.toNat = numberAt raw offset 4 :=
  take_eq_number_iff w.toNat_lt h

theorem take_eq_word64_iff {w : UInt64} (h : offset + 8 ≤ raw.length) :
    (raw.drop offset).take 8 = Wire.number 8 w.toNat ↔
      w.toNat = numberAt raw offset 8 :=
  take_eq_number_iff w.toNat_lt h

theorem take_eq_byte_iff {byte : UInt8} (h : offset + 1 ≤ raw.length) :
    (raw.drop offset).take 1 = [byte] ↔ byte = byteAt raw offset := by
  rw [window_one h, List.cons.injEq, and_iff_left rfl, eq_comm]

theorem take_eq_address_iff {address : Address} :
    (raw.drop offset).take 32 = address.bytes ↔
      address.bytes = bytesAt raw offset 32 := eq_comm

end Bytes

end VaultWire
