import Mathlib.Data.List.DropRight
import VaultWire.Text.Fixed

/-!
# Text in fields of fixed width

What is read back from a field is the text cut at the width, without the U+0000 at its end, if the
cut leaves characters whole, and a refusal that tells the width if it splits one. In the other
direction the bytes of a field that reads as text are the only ones that do so.
-/

namespace VaultWire.Bytes

theorem trimZeros_concat_zero (bytes : Bytes) : trimZeros (bytes ++ [0]) = trimZeros bytes := by
  induction bytes with
  | nil => rfl
  | cons b rest ih => rw [List.cons_append, trimZeros, ih, trimZeros]

theorem trimZeros_concat_of_ne {last : UInt8} (h : last ≠ 0) (bytes : Bytes) :
    trimZeros (bytes ++ [last]) = bytes ++ [last] := by
  induction bytes with
  | nil => simp [trimZeros, h]
  | cons b rest ih =>
      rw [List.cons_append, trimZeros, ih]
      cases rest <;> rfl

theorem trimZeros_eq_rdropWhile (bytes : Bytes) :
    trimZeros bytes = bytes.rdropWhile (· == 0) := by
  induction bytes using List.reverseRecOn with
  | nil => rfl
  | append_singleton bytes last ih =>
      by_cases h : last = 0
      · subst h
        rw [trimZeros_concat_zero, ih, List.rdropWhile_concat_pos _ _ _ (by simp)]
      · rw [trimZeros_concat_of_ne h, List.rdropWhile_concat_neg _ _ _ (by simpa using h)]

theorem trimZeros_append_zeros (bytes : Bytes) (n : Nat) :
    trimZeros (bytes ++ zeros n) = trimZeros bytes := by
  induction n with
  | zero => simp [zeros]
  | succ n ih =>
      have hzeros : zeros (n + 1) = zeros n ++ [0] := List.replicate_succ'
      rw [hzeros, ← List.append_assoc, trimZeros_concat_zero, ih]

theorem exists_trimZeros_append (bytes : Bytes) : ∃ n, trimZeros bytes ++ zeros n = bytes := by
  induction bytes using List.reverseRecOn with
  | nil => exact ⟨0, rfl⟩
  | append_singleton bytes last ih =>
      by_cases h : last = 0
      · subst h
        obtain ⟨n, hn⟩ := ih
        have hzeros : zeros (n + 1) = zeros n ++ [0] := List.replicate_succ'
        exact ⟨n + 1, by rw [trimZeros_concat_zero, hzeros, ← List.append_assoc, hn]⟩
      · exact ⟨0, by rw [trimZeros_concat_of_ne h]; exact List.append_nil _⟩

theorem length_trimZeros_le (bytes : Bytes) : (trimZeros bytes).length ≤ bytes.length := by
  obtain ⟨n, hn⟩ := exists_trimZeros_append bytes
  have hlength := congrArg List.length hn
  rw [List.length_append] at hlength
  omega

theorem fit_trimZeros (bytes : Bytes) : fit bytes.length (trimZeros bytes) = bytes := by
  obtain ⟨n, hn⟩ := exists_trimZeros_append bytes
  have hlength := congrArg List.length hn
  rw [List.length_append, length_zeros] at hlength
  rw [fit, List.take_of_length_le (length_trimZeros_le bytes), ← hlength, Nat.add_sub_cancel_left,
    hn]

end VaultWire.Bytes

namespace VaultWire.Text

theorem utf8_ofList (chars : List Char) :
    utf8 (String.ofList chars) = chars.flatMap String.utf8EncodeChar := by
  rw [utf8, String.toByteArray_ofList, List.utf8Encode, List.data_toByteArray]

theorem utf8_eq_flatMap (text : String) :
    utf8 text = text.toList.flatMap String.utf8EncodeChar := by
  rw [← utf8_ofList, String.ofList_toList]

theorem length_utf8 (text : String) : (utf8 text).length = text.utf8ByteSize := rfl

theorem toByteArray_utf8 (text : String) :
    (⟨(utf8 text).toArray⟩ : ByteArray) = text.toByteArray := by
  rw [utf8, Array.toArray_toList]

theorem utf8_injective {s t : String} (h : utf8 s = utf8 t) : s = t := by
  rw [← String.toByteArray_inj, ← toByteArray_utf8, h, toByteArray_utf8]

theorem isValidUTF8_iff {bytes : Bytes} :
    (⟨bytes.toArray⟩ : ByteArray).IsValidUTF8 ↔ ∃ text, utf8 text = bytes := by
  constructor
  · intro h
    exact ⟨String.fromUTF8 _ h, rfl⟩
  · rintro ⟨text, rfl⟩
    rw [toByteArray_utf8]
    exact text.isValidUTF8

theorem ofUtf8?_eq_some_iff {bytes : Bytes} {text : String} :
    ofUtf8? bytes = some text ↔ utf8 text = bytes := by
  rw [ofUtf8?, String.fromUTF8?]
  constructor
  · intro h
    split at h
    · cases h
      rfl
    · cases h
  · intro h
    subst h
    rw [dif_pos (isValidUTF8_iff.mpr ⟨text, rfl⟩)]
    exact congrArg some (utf8_injective rfl)

/-- No byte of a character is zero, U+0000 itself apart. -/
theorem ne_zero_of_mem_utf8EncodeChar {c : Char} (hc : c ≠ '\x00') :
    ∀ b ∈ String.utf8EncodeChar c, b ≠ 0 := by
  have hv : c.val.toNat ≠ 0 := by
    intro h
    exact hc (Char.ext (UInt32.toNat_inj.mp h))
  have hofNat : ∀ n, 0 < n → n < 256 → UInt8.ofNat n ≠ 0 := by
    intro n h0 h1 hz
    have hn := congrArg UInt8.toNat hz
    rw [UInt8.toNat_ofNat', Nat.mod_eq_of_lt h1] at hn
    exact absurd hn (by simp; omega)
  intro b hb
  dsimp only [String.utf8EncodeChar] at hb
  split_ifs at hb <;> simp only [List.mem_cons, List.not_mem_nil, or_false] at hb
  · subst hb
    exact hofNat _ (by omega) (by omega)
  · rcases hb with rfl | rfl <;> exact hofNat _ (by omega) (by omega)
  · rcases hb with rfl | rfl | rfl <;> exact hofNat _ (by omega) (by omega)
  · rcases hb with rfl | rfl | rfl | rfl <;> exact hofNat _ (by omega) (by omega)

/-- The text without the U+0000 at its end. -/
def withoutNuls (text : String) : String := String.ofList (text.toList.rdropWhile (· == '\x00'))

/-- Whether the first `width` bytes of the text are whole characters. -/
def WholeAt (width : Nat) (text : String) : Prop :=
  text.utf8ByteSize ≤ width ∨ (⟨width⟩ : String.Pos.Raw).IsValid text

/-- Whether the text is no longer than the field and does not end in U+0000. -/
def Fits (width : Nat) (text : String) : Prop :=
  text.utf8ByteSize ≤ width ∧ text.toList.getLast? ≠ some '\x00'

theorem utf8_withoutNuls (text : String) :
    utf8 (withoutNuls text) = Bytes.trimZeros (utf8 text) := by
  rw [withoutNuls, utf8_ofList, utf8_eq_flatMap]
  induction text.toList using List.reverseRecOn with
  | nil => rfl
  | append_singleton chars c ih =>
      rw [List.flatMap_append, List.flatMap_singleton]
      by_cases hc : c = '\x00'
      · have hzero : String.utf8EncodeChar c = [0] := by subst hc; decide
        rw [hzero, Bytes.trimZeros_concat_zero, ← ih,
          List.rdropWhile_concat_pos _ _ _ (by simpa using hc)]
      · obtain ⟨front, last, hlast⟩ :=
          (List.eq_nil_or_concat' (String.utf8EncodeChar c)).resolve_left
            String.utf8EncodeChar_ne_nil
        have hne : last ≠ 0 := ne_zero_of_mem_utf8EncodeChar hc last (by rw [hlast]; simp)
        rw [List.rdropWhile_concat_neg _ _ _ (by simpa using hc), hlast, ← List.append_assoc,
          Bytes.trimZeros_concat_of_ne hne, List.flatMap_append, List.flatMap_singleton, hlast,
          List.append_assoc]

theorem withoutNuls_eq_self_iff {text : String} :
    withoutNuls text = text ↔ text.toList.getLast? ≠ some '\x00' := by
  have hlist : withoutNuls text = text ↔ text.toList.rdropWhile (· == '\x00') = text.toList := by
    rw [withoutNuls, ← String.toList_inj, String.toList_ofList]
  rw [hlist, List.rdropWhile_eq_self_iff]
  rcases List.eq_nil_or_concat' text.toList with h | ⟨chars, c, h⟩
  · simp [h]
  · simp [h]

theorem extract_toByteArray (text : String) (width : Nat) :
    text.toByteArray.extract 0 width = ⟨((utf8 text).take width).toArray⟩ := by
  apply ByteArray.ext
  rw [ByteArray.data_extract, utf8]
  apply Array.toList_inj.mp
  simp [List.extract]

theorem exists_front_iff {text : String} {width : Nat} :
    (∃ front, utf8 front = (utf8 text).take width) ↔ WholeAt width text := by
  constructor
  · rintro ⟨front, hfront⟩
    by_cases hsize : text.utf8ByteSize ≤ width
    · exact .inl hsize
    · right
      rw [String.Pos.Raw.isValid_iff_isValidUTF8_extract_zero, extract_toByteArray, ← hfront,
        toByteArray_utf8]
      refine ⟨?_, front.isValidUTF8⟩
      rw [String.Pos.Raw.le_iff, String.byteIdx_rawEndPos]
      exact (Nat.lt_of_not_le hsize).le
  · rintro (hsize | hvalid)
    · exact ⟨text, (List.take_of_length_le hsize).symm⟩
    · rw [String.Pos.Raw.isValid_iff_isValidUTF8_extract_zero, extract_toByteArray] at hvalid
      exact ⟨String.fromUTF8 _ hvalid.2, rfl⟩

/-- A cut through a character leaves a byte of that character at the end, which is not zero. -/
theorem take_flatMap_utf8EncodeChar (chars : List Char) (width : Nat)
    (h : width ≤ (chars.flatMap String.utf8EncodeChar).length) :
    (∃ front : List Char, front.flatMap String.utf8EncodeChar =
      (chars.flatMap String.utf8EncodeChar).take width) ∨
    ∃ bytes last, last ≠ 0 ∧
      (chars.flatMap String.utf8EncodeChar).take width = bytes ++ [last] := by
  induction chars generalizing width with
  | nil => exact .inl ⟨[], by simp⟩
  | cons c chars ih =>
      rw [List.flatMap_cons, List.length_append] at h
      rw [List.flatMap_cons, List.take_append]
      by_cases hcut : width < (String.utf8EncodeChar c).length
      · -- The cut falls into this character, so nothing of the others is kept.
        rw [Nat.sub_eq_zero_of_le hcut.le, List.take_zero, List.append_nil]
        rcases List.eq_nil_or_concat' ((String.utf8EncodeChar c).take width) with hnil | hlast
        · exact .inl ⟨[], by rw [hnil, List.flatMap_nil]⟩
        · obtain ⟨bytes, last, hlast⟩ := hlast
          refine .inr ⟨bytes, last, ?_, hlast⟩
          have hmem : last ∈ (String.utf8EncodeChar c).take width := by rw [hlast]; simp
          have hpos : width ≠ 0 := by
            intro h0
            rw [h0, List.take_zero] at hmem
            cases hmem
          have hc : c ≠ '\x00' := by
            intro hc
            subst hc
            have hone : (String.utf8EncodeChar '\x00').length = 1 := by decide
            omega
          exact ne_zero_of_mem_utf8EncodeChar hc last (List.mem_of_mem_take hmem)
      · rw [List.take_of_length_le (Nat.le_of_not_lt hcut)]
        rcases ih (width - (String.utf8EncodeChar c).length) (by omega) with
          ⟨front, hfront⟩ | ⟨bytes, last, hne, hlast⟩
        · exact .inl ⟨c :: front, by rw [List.flatMap_cons, hfront]⟩
        · exact .inr ⟨String.utf8EncodeChar c ++ bytes, last, hne, by
            rw [hlast, List.append_assoc]⟩

theorem exists_take_utf8_of_not_wholeAt {text : String} {width : Nat} (h : ¬ WholeAt width text) :
    ∃ bytes last, last ≠ 0 ∧ (utf8 text).take width = bytes ++ [last] := by
  have hsize : width ≤ (utf8 text).length := (Nat.lt_of_not_le fun hle => h (.inl hle)).le
  rw [utf8_eq_flatMap] at hsize
  rw [utf8_eq_flatMap]
  refine (take_flatMap_utf8EncodeChar text.toList width hsize).resolve_left ?_
  rintro ⟨front, hfront⟩
  refine h (exists_front_iff.mp ⟨String.ofList front, ?_⟩)
  rw [utf8_ofList, hfront, utf8_eq_flatMap]

theorem decode_eq_ok_iff {bytes : Bytes} {text : String} :
    decode bytes = .ok text ↔ utf8 text = Bytes.trimZeros bytes := by
  rw [← ofUtf8?_eq_some_iff, decode]
  cases ofUtf8? (Bytes.trimZeros bytes) with
  | none => simp
  | some kept => simp

theorem decode_eq_error_iff {bytes : Bytes} {cause : CodecError} :
    decode bytes = .error cause ↔
      (∀ content, utf8 content ≠ bytes.rdropWhile (· == 0)) ∧
        cause = .invalidText (bytes.rdropWhile (· == 0)).length := by
  have hnone : ofUtf8? (Bytes.trimZeros bytes) = none ↔
      ∀ content, utf8 content ≠ Bytes.trimZeros bytes := by
    rw [Option.eq_none_iff_forall_ne_some]
    exact forall_congr' fun content => not_congr ofUtf8?_eq_some_iff
  rw [← Bytes.trimZeros_eq_rdropWhile, ← hnone, decode]
  cases ofUtf8? (Bytes.trimZeros bytes) with
  | none => simp [eq_comm]
  | some content => simp

theorem trimZeros_encode (text : String) (width : Nat) :
    Bytes.trimZeros (encode text width) = Bytes.trimZeros ((utf8 text).take width) := by
  rw [encode, Bytes.fit, Bytes.trimZeros_append_zeros]

theorem decode_encode_of_front {text front : String} {width : Nat}
    (h : utf8 front = (utf8 text).take width) :
    decode (encode text width) = .ok (withoutNuls front) := by
  rw [decode_eq_ok_iff, trimZeros_encode, ← h, utf8_withoutNuls]

/-- If the cut splits a character, the field is refused, and no byte of it is trimmed before. -/
theorem decode_encode_of_not_wholeAt {text : String} {width : Nat} (h : ¬ WholeAt width text) :
    decode (encode text width) = .error (.invalidText width) := by
  have hsize : width ≤ (utf8 text).length := (Nat.lt_of_not_le fun hle => h (.inl hle)).le
  have htrim : Bytes.trimZeros ((utf8 text).take width) = (utf8 text).take width := by
    obtain ⟨bytes, last, hne, hlast⟩ := exists_take_utf8_of_not_wholeAt h
    rw [hlast, Bytes.trimZeros_concat_of_ne hne]
  have hread : ofUtf8? ((utf8 text).take width) = none := by
    rw [Option.eq_none_iff_forall_ne_some]
    intro front hfront
    exact h (exists_front_iff.mp ⟨front, ofUtf8?_eq_some_iff.mp hfront⟩)
  rw [decode, trimZeros_encode, htrim]
  simp only [hread, List.length_take, Nat.min_eq_left hsize]

theorem decode_encode_eq_ok_iff {text kept : String} {width : Nat} :
    decode (encode text width) = .ok kept ↔
      ∃ front, utf8 front = (utf8 text).take width ∧ kept = withoutNuls front := by
  constructor
  · intro h
    have hwhole : WholeAt width text := by
      by_contra hsplit
      rw [decode_encode_of_not_wholeAt hsplit] at h
      cases h
    obtain ⟨front, hfront⟩ := exists_front_iff.mpr hwhole
    rw [decode_encode_of_front hfront] at h
    exact ⟨front, hfront, (Except.ok.inj h).symm⟩
  · rintro ⟨front, hfront, rfl⟩
    exact decode_encode_of_front hfront

theorem decode_encode_eq_error_iff {text : String} {width : Nat} {cause : CodecError} :
    decode (encode text width) = .error cause ↔
      ¬ WholeAt width text ∧ cause = .invalidText width := by
  constructor
  · intro h
    have hsplit : ¬ WholeAt width text := by
      intro hwhole
      obtain ⟨front, hfront⟩ := exists_front_iff.mpr hwhole
      rw [decode_encode_of_front hfront] at h
      cases h
    rw [decode_encode_of_not_wholeAt hsplit] at h
    exact ⟨hsplit, (Except.error.inj h).symm⟩
  · rintro ⟨hsplit, rfl⟩
    exact decode_encode_of_not_wholeAt hsplit

theorem encode_of_decode {bytes : Bytes} {text : String} (h : decode bytes = .ok text) :
    encode text bytes.length = bytes := by
  rw [encode, decode_eq_ok_iff.mp h, Bytes.fit_trimZeros]

theorem fits_of_decode {bytes : Bytes} {text : String} (h : decode bytes = .ok text) :
    Fits bytes.length text := by
  rw [decode_eq_ok_iff] at h
  refine ⟨?_, withoutNuls_eq_self_iff.mp (utf8_injective ?_)⟩
  · rw [← length_utf8, h]
    exact Bytes.length_trimZeros_le bytes
  · rw [utf8_withoutNuls, h, Bytes.trimZeros_eq_rdropWhile, Bytes.trimZeros_eq_rdropWhile,
      List.rdropWhile_idempotent]

theorem decode_encode_eq_self_iff {text : String} {width : Nat} :
    decode (encode text width) = .ok text ↔ Fits width text := by
  constructor
  · intro h
    have hfits := fits_of_decode h
    rwa [encode, Bytes.length_fit] at hfits
  · rintro ⟨hsize, hlast⟩
    have hfront : utf8 text = (utf8 text).take width := (List.take_of_length_le hsize).symm
    rw [decode_encode_of_front hfront, withoutNuls_eq_self_iff.mpr hlast]

end VaultWire.Text
