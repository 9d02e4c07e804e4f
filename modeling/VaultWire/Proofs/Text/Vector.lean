import Mathlib.Data.List.GetD
import VaultWire.Proofs.Text
import VaultWire.Proofs.Trap

/-!
# Text in vectors

A text gets the same bytes in a field and in a vector of the same width: its own bytes in the places
up to its length, and zeros in the places behind. A program fills the vector by a copy over zeros. It
can copy as many bytes as the text and the vector both have and no more, and it copies so many, so
nothing stops it, whether the text is shorter than the vector, longer or as long.
-/

namespace VaultWire

namespace Bytes

theorem getElem?_fit {bytes : Bytes} {n i : Nat} (h : i < n) :
    (fit n bytes)[i]? = some (bytes.getD i 0) := by
  by_cases hi : i < bytes.length
  · have hkept : i < (bytes.take n).length := by
      rw [List.length_take]
      omega
    rw [fit, List.getElem?_append_left hkept, List.getElem?_take_of_lt h,
      List.getElem?_eq_getElem hi, List.getD_eq_getElem _ _ hi]
  · have hcut : bytes.take n = bytes := List.take_of_length_le (by omega)
    rw [fit, hcut, List.getElem?_append_right (by omega), zeros,
      List.getElem?_replicate_of_lt (by omega), List.getD_eq_default _ _ (by omega)]

/-- What is too much is not copied, and what is missing is a zero that was there before. -/
theorem take_append_drop_zeros (n : Nat) (bytes : Bytes) :
    bytes.take (min bytes.length n) ++ (zeros n).drop (min bytes.length n) = fit n bytes := by
  have htake : bytes.take (min bytes.length n) = bytes.take n :=
    List.take_eq_take_iff.mpr (by omega)
  have hrest : n - min bytes.length n = n - bytes.length := by omega
  rw [fit, zeros, zeros, List.drop_replicate, htake, hrest]

end Bytes

/-- The bytes of the text copied over zeros, as many as there are of both. -/
def Checked.encodeVector (text : String) (width : Nat) : Except CopyTrap Bytes :=
  let source := Text.utf8 text
  copyFront (Bytes.zeros width) source (min source.length width)

namespace Text

variable {text : String} {width i : Nat}

theorem getElem_encodeVector (h : i < width) :
    (encodeVector text width)[i] = (utf8 text).getD i 0 := by
  rw [encodeVector, Vector.getElem_ofFn]
  by_cases hi : i < text.toByteArray.size
  · have hinside : i < (utf8 text).length := hi
    rw [dif_pos hi, List.getD_eq_getElem _ _ hinside]
    rfl
  · have hbehind : (utf8 text).length ≤ i := Nat.le_of_not_lt hi
    rw [dif_neg hi, List.getD_eq_default _ _ hbehind]

theorem toList_encodeVector (text : String) (width : Nat) :
    (encodeVector text width).toList = encode text width := by
  apply List.ext_getElem
  · rw [Vector.length_toList, encode, Bytes.length_fit]
  · intro i hvector hfield
    have hi : i < width := by rwa [Vector.length_toList] at hvector
    have hplace : (encode text width)[i]? = some ((utf8 text).getD i 0) := Bytes.getElem?_fit hi
    rw [Vector.getElem_toList, getElem_encodeVector hi]
    exact (Option.some.inj ((List.getElem?_eq_getElem hfield).symm.trans hplace)).symm

theorem checked_encodeVector (text : String) (width : Nat) :
    Checked.encodeVector text width = .ok (encodeVector text width).toList := by
  have hzeros : min (utf8 text).length width ≤ (Bytes.zeros width).length := by
    rw [Bytes.length_zeros]
    exact Nat.min_le_right _ _
  rw [toList_encodeVector, Checked.encodeVector,
    Checked.copyFront_of_le hzeros (Nat.min_le_left _ _), Bytes.take_append_drop_zeros, encode]

/-- The most that can be copied is as much as the shorter one of the text and the vector has. -/
theorem exists_copyFront_zeros_iff {count : Nat} :
    (∃ bytes, Checked.copyFront (Bytes.zeros width) (utf8 text) count = .ok bytes) ↔
      count ≤ min (utf8 text).length width := by
  rw [Checked.exists_copyFront_iff, Bytes.length_zeros, Nat.le_min, and_comm]

/-- A text has the same bytes in a vector as in a field of its width, which are as many as the width:
those of the text in the places that both have, and zeros behind. The copy over zeros that fills the
vector is not stopped, and it could not be any longer. -/
theorem same_in_vector (text : String) (width : Nat) :
    (encodeVector text width).toList = encode text width ∧
    (encode text width).length = width ∧
    (∀ i, i < min width (utf8 text).length → (encode text width)[i]? = (utf8 text)[i]?) ∧
    (∀ i, min width (utf8 text).length ≤ i → i < width → (encode text width)[i]? = some 0) ∧
    Checked.encodeVector text width = .ok (encodeVector text width).toList ∧
    ∀ count, (∃ bytes, Checked.copyFront (Bytes.zeros width) (utf8 text) count = .ok bytes) ↔
      count ≤ min (utf8 text).length width := by
  refine ⟨toList_encodeVector text width, Bytes.length_fit width _, ?_, ?_,
    checked_encodeVector text width, fun count => exists_copyFront_zeros_iff⟩
  · intro i h
    obtain ⟨hwidth, hlength⟩ := Nat.lt_min.mp h
    rw [encode, Bytes.getElem?_fit hwidth, List.getElem?_eq_getElem hlength,
      List.getD_eq_getElem _ _ hlength]
  · intro i h hwidth
    rw [encode, Bytes.getElem?_fit hwidth, List.getD_eq_default _ _ (by omega)]

/-- The cut may split a letter, a vector of no places takes any text, and one byte more than there is
room for would stop the copy. -/
theorem same_in_vector_cut :
    Checked.encodeVector "aé" 2 = .ok [97, 0xC3] ∧ Checked.encodeVector "aé" 0 = .ok [] ∧
      Checked.encodeVector "aé" 5 = .ok [97, 0xC3, 0xA9, 0, 0] ∧
      (encodeVector "aé" 5).toList[1]? = some 0xC3 ∧
      (encodeVector "aé" 5).toList[3]? = some 0 ∧
      ¬ ∃ bytes, Checked.copyFront (Bytes.zeros 2) (utf8 "aé") 3 = .ok bytes := by
  obtain ⟨htwo, -, -, -, hcopytwo, hmost⟩ := same_in_vector "aé" 2
  obtain ⟨hnone, -, -, -, hcopynone, -⟩ := same_in_vector "aé" 0
  obtain ⟨hfive, -, hplaces, hbehind, hcopyfive, -⟩ := same_in_vector "aé" 5
  refine ⟨?_, ?_, ?_, ?_, ?_, ?_⟩
  · rw [hcopytwo, htwo]
    decide
  · rw [hcopynone, hnone]
    decide
  · rw [hcopyfive, hfive]
    decide
  · rw [hfive, hplaces 1 (by decide)]
    decide
  · rw [hfive, hbehind 3 (by decide) (by decide)]
  · rw [hmost]
    decide

end Text

end VaultWire
