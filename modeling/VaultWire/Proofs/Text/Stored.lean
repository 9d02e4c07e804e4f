import VaultWire.Proofs.Text

/-!
# Stored text

What a field keeps of a text, and which fields hold text at all. A field keeps the text up to the cut
at its width, the U+0000 at the end apart, and nothing can be read from it if the cut splits a
character. Bytes hold text if they are valid UTF-8 up to the zeros at their end; zeros before other
bytes belong to the text.
-/

namespace VaultWire

/-- Up to a byte that is not zero, nothing is trimmed. -/
theorem Bytes.getElem?_trimZeros {bytes : Bytes} {i j : Nat} {byte : UInt8} (hij : i ≤ j)
    (hj : bytes[j]? = some byte) (hne : byte ≠ 0) : (trimZeros bytes)[i]? = bytes[i]? := by
  obtain ⟨n, hn⟩ := exists_trimZeros_append bytes
  have hkept : j < (trimZeros bytes).length := by
    by_contra hle
    rw [← hn, List.getElem?_append_right (Nat.le_of_not_lt hle)] at hj
    exact hne (List.eq_of_mem_replicate (List.mem_of_getElem? hj))
  conv_rhs => rw [← hn]
  rw [List.getElem?_append_left (hij.trans_lt hkept)]

namespace Text

/-- The zero bytes of a text are its U+0000, one byte for each. -/
theorem count_zero_utf8 (text : String) : (utf8 text).count 0 = text.toList.count '\x00' := by
  rw [utf8_eq_flatMap]
  induction text.toList with
  | nil => rfl
  | cons c chars ih =>
      rw [List.flatMap_cons, List.count_append, ih, Nat.add_comm]
      by_cases hc : c = '\x00'
      · have hone : (String.utf8EncodeChar c).count 0 = 1 := by subst hc; decide
        rw [hone, hc, List.count_cons_self]
      · have hnone : (String.utf8EncodeChar c).count 0 = 0 :=
          List.count_eq_zero.mpr fun hzero => ne_zero_of_mem_utf8EncodeChar hc 0 hzero rfl
        rw [hnone, List.count_cons_of_ne hc, Nat.add_zero]

theorem exists_decode_iff {bytes : Bytes} :
    (∃ text, decode bytes = .ok text) ↔
      (⟨(bytes.rdropWhile (· == 0)).toArray⟩ : ByteArray).IsValidUTF8 := by
  simp only [decode_eq_ok_iff]
  rw [isValidUTF8_iff, Bytes.trimZeros_eq_rdropWhile]

/-- Of a text in a field, the first `width` bytes are read back without the U+0000 at their end if
they are whole characters, and otherwise the width is reported. Bytes are read exactly if they are
valid UTF-8 without the zeros at their end. What is read is no longer than the bytes, does not end in
U+0000, has every byte in front of one that is not zero in its place, zeros included, and is stored in
the same bytes again. -/
theorem kept_in_field :
    (∀ (text : String) (width : Nat),
      (WholeAt width text → ∃ front, utf8 front = (utf8 text).take width ∧
        decode (encode text width) = .ok (withoutNuls front)) ∧
      (¬ WholeAt width text → decode (encode text width) = .error (.invalidText width))) ∧
    ∀ bytes : Bytes,
      ((∃ text, decode bytes = .ok text) ↔
        (⟨(bytes.rdropWhile (· == 0)).toArray⟩ : ByteArray).IsValidUTF8) ∧
      ∀ text, decode bytes = .ok text →
        utf8 text = bytes.rdropWhile (· == 0) ∧
        text.utf8ByteSize ≤ bytes.length ∧
        text.toList.getLast? ≠ some '\x00' ∧
        (∀ (i j : Nat) (byte : UInt8), i ≤ j → bytes[j]? = some byte → byte ≠ 0 →
          (utf8 text)[i]? = bytes[i]?) ∧
        text.toList.count '\x00' = (bytes.rdropWhile (· == 0)).count 0 ∧
        encode text bytes.length = bytes := by
  constructor
  · intro text width
    refine ⟨fun hwhole => ?_, decode_encode_of_not_wholeAt⟩
    obtain ⟨front, hfront⟩ := exists_front_iff.mpr hwhole
    exact ⟨front, hfront, decode_encode_of_front hfront⟩
  · intro bytes
    refine ⟨exists_decode_iff, ?_⟩
    intro text h
    have hkept := decode_eq_ok_iff.mp h
    have hfits := fits_of_decode h
    refine ⟨?_, hfits.1, hfits.2, ?_, ?_, encode_of_decode h⟩
    · rw [hkept, Bytes.trimZeros_eq_rdropWhile]
    · intro i j byte hij hj hne
      rw [hkept, Bytes.getElem?_trimZeros hij hj hne]
    · rw [← count_zero_utf8, hkept, Bytes.trimZeros_eq_rdropWhile]

/-- A cut within the second letter, a cut behind it, and a field with a zero inside and two behind. -/
theorem kept_in_field_zeros :
    decode (encode "aé" 2) = .error (.invalidText 2) ∧
      decode (encode "aé" 3) = .ok "aé" ∧
      decode [97, 0, 98, 0, 0] = .ok "a\x00b" ∧ encode "a\x00b" 5 = [97, 0, 98, 0, 0] := by
  obtain ⟨hwritten, hread⟩ := kept_in_field
  refine ⟨?_, ?_, ?_⟩
  · apply (hwritten "aé" 2).2
    unfold WholeAt
    decide
  · obtain ⟨front, hfront, hdecode⟩ := (hwritten "aé" 3).1 (.inl (by decide))
    have hwhole : (utf8 "aé").take 3 = utf8 "aé" := by decide
    obtain rfl := utf8_injective (hfront.trans hwhole)
    rw [hdecode]
    decide
  · obtain ⟨text, htext⟩ := (hread [97, 0, 98, 0, 0]).1.mpr (by decide)
    obtain ⟨hkept, -, -, -, -, hstored⟩ := (hread [97, 0, 98, 0, 0]).2 text htext
    have hbytes : utf8 "a\x00b" = ([97, 0, 98, 0, 0] : Bytes).rdropWhile (· == 0) := by decide
    obtain rfl := utf8_injective (hkept.trans hbytes.symm)
    exact ⟨htext, hstored⟩

end Text

end VaultWire
