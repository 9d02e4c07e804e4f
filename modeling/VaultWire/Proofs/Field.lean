import VaultWire.Proofs.EnumTable
import VaultWire.Proofs.Except
import VaultWire.Proofs.LittleEndian
import VaultWire.Proofs.Text
import VaultWire.Schema.Encode
import VaultWire.Schema.Decode

/-!
# One field

A field writes the values it accepts in exactly its width, and reads from its own bytes only values
that it accepts. Reading after writing gives the value back, text apart; writing after reading gives
the bytes back. The tables of a field enter these laws with the half of their uniqueness that the
direction needs.
-/

namespace VaultWire

theorem Address.ofBytes?_bytes (address : Address) :
    Address.ofBytes? address.bytes = some address := by
  rw [Address.ofBytes?, dif_pos address.length_bytes]

theorem Address.bytes_of_ofBytes? {bytes : Bytes} {address : Address}
    (h : Address.ofBytes? bytes = some address) : address.bytes = bytes := by
  unfold Address.ofBytes? at h
  split_ifs at h
  cases h
  rfl

theorem Bytes.firstNonZero_zeros (width index : Nat) :
    Bytes.firstNonZero index (Bytes.zeros width) = none := by
  induction width generalizing index with
  | zero => rfl
  | succ width ih =>
      rw [Bytes.zeros, List.replicate_succ, Bytes.firstNonZero, if_pos rfl]
      exact ih (index + 1)

theorem Bytes.eq_zeros_of_firstNonZero {bytes : Bytes} {index : Nat}
    (h : Bytes.firstNonZero index bytes = none) : bytes = Bytes.zeros bytes.length := by
  induction bytes generalizing index with
  | nil => rfl
  | cons b rest ih =>
      rw [Bytes.firstNonZero] at h
      split_ifs at h with hb
      rw [hb, List.length_cons, Bytes.zeros, List.replicate_succ]
      exact congrArg _ (ih h)

theorem Bytes.checkPadding_eq_ok_iff {bytes : Bytes} :
    Bytes.checkPadding bytes = .ok () ↔ bytes = Bytes.zeros bytes.length := by
  unfold Bytes.checkPadding
  constructor
  · intro h
    cases hfirst : Bytes.firstNonZero 0 bytes with
    | none => exact Bytes.eq_zeros_of_firstNonZero hfirst
    | some found => rw [hfirst] at h; cases h
  · intro h
    rw [h, Bytes.firstNonZero_zeros]

namespace FieldType

theorem decode_address (bytes : Bytes) :
    address.decode bytes = (Address.ofBytes? bytes).elim
      (.error (.schemaLength 32 bytes.length)) fun value => .ok (.address value) := by
  cases h : Address.ofBytes? bytes <;> simp [decode, h]

/-- Whether a value can be written in a field of this type. -/
def Accepts : FieldType → FieldValue → Prop
  | uint width, .uint n => n < 256 ^ width
  | bool, .bool _ => True
  | enum table, .enum symbol => symbol ∈ table.entries.map (·.2)
  | address, .address _ => True
  | text _, .text _ => True
  | padding _, .padding => True
  | _, _ => False

/-- What is read back after a value was written: text is cut and trimmed, all else is kept. -/
def reread : FieldType → FieldValue → Except CodecError FieldValue
  | text width, .text content => (Text.decode (Text.encode content width)).map .text
  | _, value => .ok value

def BytesDistinct : FieldType → Prop
  | enum table => table.BytesDistinct
  | _ => True

def SymbolsDistinct : FieldType → Prop
  | enum table => table.SymbolsDistinct
  | _ => True

end FieldType

namespace Field

variable {field : Field} {value : FieldValue} {bytes : Bytes}

theorem exists_encode_of_accepts (h : field.type.Accepts value) :
    ∃ bytes, field.encode value = .ok bytes := by
  obtain ⟨name, type⟩ := field
  cases type <;> cases value <;> try exact h.elim
  case uint width n => exact ⟨_, (Integer.encode_natCast n width).trans (if_pos h)⟩
  case bool flag => exact ⟨_, rfl⟩
  case enum table symbol =>
    obtain ⟨byte, hbyte⟩ := EnumTable.exists_encode_of_mem h
    exact ⟨[byte], map_eq_ok_iff.mpr ⟨byte, hbyte, rfl⟩⟩
  case address value => exact ⟨_, rfl⟩
  case text width content => exact ⟨_, rfl⟩
  case padding width => exact ⟨_, rfl⟩

theorem length_of_encode (h : field.encode value = .ok bytes) :
    bytes.length = field.type.width := by
  obtain ⟨name, type⟩ := field
  cases type <;> cases value <;> try cases h
  case uint width n =>
    have hencode : Integer.encode n width = .ok bytes := h
    rw [Integer.encode_natCast] at hencode
    split_ifs at hencode
    cases hencode
    exact LittleEndian.length_encode width n
  case bool flag => rfl
  case enum table symbol =>
    obtain ⟨byte, -, rfl⟩ := map_eq_ok_iff.mp h
    rfl
  case address value => exact value.length_bytes
  case text width content => exact Bytes.length_fit width _
  case padding width => exact Bytes.length_zeros width

theorem decode_of_encode (hdistinct : field.type.BytesDistinct)
    (h : field.encode value = .ok bytes) :
    field.type.decode bytes = field.type.reread value := by
  obtain ⟨name, type⟩ := field
  cases type <;> cases value <;> try cases h
  case uint width n =>
    have hencode : Integer.encode n width = .ok bytes := h
    rw [Integer.encode_natCast] at hencode
    split_ifs at hencode with hlt
    cases hencode
    exact congrArg (Except.ok ∘ FieldValue.uint) (LittleEndian.decode_encode_of_lt hlt)
  case bool flag => exact congrArg (Except.map FieldValue.bool) (Flag.decode_encode flag)
  case enum table symbol =>
    obtain ⟨byte, hbyte, rfl⟩ := map_eq_ok_iff.mp h
    exact congrArg (Except.map FieldValue.enum)
      (EnumTable.decode_of_encode hdistinct hbyte)
  case address value =>
    have hread := FieldType.decode_address value.bytes
    rwa [Address.ofBytes?_bytes] at hread
  case text width content => rfl
  case padding width =>
    have hpadding : Bytes.checkPadding (Bytes.zeros width) = .ok () :=
      Bytes.checkPadding_eq_ok_iff.mpr (by rw [Bytes.length_zeros])
    exact congrArg (Except.map fun _ => FieldValue.padding) hpadding

end Field

namespace FieldType

variable {type : FieldType} {value : FieldValue} {bytes : Bytes}

theorem decode_address_eq_ok_iff {value : FieldValue} :
    address.decode bytes = .ok value ↔ ∃ a : Address, value = .address a ∧ a.bytes = bytes := by
  rw [decode_address]
  constructor
  · intro h
    cases hread : Address.ofBytes? bytes with
    | none => rw [hread] at h; cases h
    | some a =>
        rw [hread] at h
        cases h
        exact ⟨a, rfl, Address.bytes_of_ofBytes? hread⟩
  · rintro ⟨a, rfl, rfl⟩
    rw [Address.ofBytes?_bytes]
    rfl

theorem accepts_of_decode (hlength : bytes.length = type.width)
    (h : type.decode bytes = .ok value) : type.Accepts value := by
  cases type with
  | uint width =>
      cases h
      obtain rfl : bytes.length = width := hlength
      exact LittleEndian.decode_lt bytes
  | bool =>
      obtain ⟨byte, rfl⟩ := List.length_eq_one_iff.mp hlength
      obtain ⟨flag, -, rfl⟩ := map_eq_ok_iff.mp h
      trivial
  | enum table =>
      obtain ⟨byte, rfl⟩ := List.length_eq_one_iff.mp hlength
      obtain ⟨symbol, hsymbol, rfl⟩ := map_eq_ok_iff.mp h
      exact List.mem_map_of_mem (EnumTable.mem_of_decode hsymbol)
  | address =>
      obtain ⟨a, rfl, -⟩ := decode_address_eq_ok_iff.mp h
      trivial
  | text width =>
      obtain ⟨content, -, rfl⟩ := map_eq_ok_iff.mp h
      trivial
  | padding width =>
      obtain ⟨-, -, rfl⟩ := map_eq_ok_iff.mp h
      trivial

end FieldType

namespace Field

/-- Every window that reads is the canonical form of the value read. -/
theorem encode_of_decode {field : Field} {value : FieldValue} {bytes : Bytes}
    (hdistinct : field.type.SymbolsDistinct) (hlength : bytes.length = field.type.width)
    (h : field.type.decode bytes = .ok value) : field.encode value = .ok bytes := by
  obtain ⟨name, type⟩ := field
  cases type with
  | uint width =>
      cases h
      obtain rfl : bytes.length = width := hlength
      refine (Integer.encode_natCast _ _).trans ?_
      rw [Integer.decode, if_pos (LittleEndian.decode_lt bytes), LittleEndian.encode_decode]
  | bool =>
      obtain ⟨byte, rfl⟩ := List.length_eq_one_iff.mp hlength
      obtain ⟨flag, hflag, rfl⟩ := map_eq_ok_iff.mp h
      exact congrArg (Except.ok ∘ ([·])) (Flag.encode_of_decode hflag)
  | enum table =>
      obtain ⟨byte, rfl⟩ := List.length_eq_one_iff.mp hlength
      obtain ⟨symbol, hsymbol, rfl⟩ := map_eq_ok_iff.mp h
      exact congrArg (Except.map ([·]))
        (EnumTable.encode_of_decode hdistinct hsymbol)
  | address =>
      obtain ⟨a, rfl, rfl⟩ := FieldType.decode_address_eq_ok_iff.mp h
      rfl
  | text width =>
      obtain ⟨content, hcontent, rfl⟩ := map_eq_ok_iff.mp h
      obtain rfl : bytes.length = width := hlength
      exact congrArg Except.ok (Text.encode_of_decode hcontent)
  | padding width =>
      obtain ⟨⟨⟩, hpadding, rfl⟩ := map_eq_ok_iff.mp h
      obtain rfl : bytes.length = width := hlength
      exact congrArg Except.ok (Bytes.checkPadding_eq_ok_iff.mp hpadding).symm

end Field

end VaultWire
