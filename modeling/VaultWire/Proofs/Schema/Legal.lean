import VaultWire.Proofs.Schema.Places

/-!
# Legal bytes

Whether the bytes of a field are legal, what they stand for and for which cause they are refused
depends on the type of the field and on these bytes alone. A buffer of the right length is read
exactly if the bytes of every field are legal, and is refused for the first field where they are not.
-/

namespace VaultWire

open Bytes

namespace FieldType

/-- Whether the bytes of a field of this type are legal. -/
def Legal : FieldType → Bytes → Prop
  | uint _, _ | address, _ => True
  | bool, window => window = [0] ∨ window = [1]
  | enum table, window => ∃ byte ∈ table.entries.map (·.1), window = [byte]
  | text _, window => ∃ content, Text.utf8 content = window.rdropWhile (· == 0)
  | padding _, window => ∀ byte ∈ window, byte = 0

/-- What the bytes of a field of this type stand for. Of the entries of a table that have the same
byte, the first one counts. -/
inductive Reads : FieldType → Bytes → FieldValue → Prop
  | uint (width : Nat) (window : Bytes) :
      Reads (.uint width) window (.uint (numberAt window 0 window.length))
  | no : Reads .bool [0] (.bool false)
  | yes : Reads .bool [1] (.bool true)
  | enum {table : EnumTable} {byte : UInt8} {symbol : String}
      {before after : List (UInt8 × String)} :
      table.entries = before ++ (byte, symbol) :: after → (∀ entry ∈ before, entry.1 ≠ byte) →
      Reads (.enum table) [byte] (.enum symbol)
  | address (value : Address) : Reads .address value.bytes (.address value)
  | text {width : Nat} {window : Bytes} {content : String} :
      Text.utf8 content = window.rdropWhile (· == 0) → Reads (.text width) window (.text content)
  | padding (width count : Nat) : Reads (.padding width) (List.replicate count 0) .padding

/-- The cause for which the bytes of a field of this type are refused. -/
inductive Refuses : FieldType → Bytes → CodecError → Prop
  | bool {byte : UInt8} : byte ≠ 0 → byte ≠ 1 → Refuses .bool [byte] (.invalidEnum "bool" byte)
  | enum {table : EnumTable} {byte : UInt8} :
      byte ∉ table.entries.map (·.1) → Refuses (.enum table) [byte] (.invalidEnum table.name byte)
  | text {width : Nat} {window : Bytes} :
      (∀ content, Text.utf8 content ≠ window.rdropWhile (· == 0)) →
      Refuses (.text width) window (.invalidText (window.rdropWhile (· == 0)).length)
  | padding {width index : Nat} {value : UInt8} {after : Bytes} : value ≠ 0 →
      Refuses (.padding width) (List.replicate index 0 ++ value :: after)
        (.nonZeroPadding index value)

variable {type : FieldType} {window : Bytes} {value : FieldValue} {cause : CodecError}

theorem decode_eq_ok_iff_reads (hlength : window.length = type.width) :
    type.decode window = .ok value ↔ type.Reads window value := by
  cases type with
  | uint width =>
      have hnumber : Integer.decode window = numberAt window 0 window.length := by
        rw [Integer.decode, ← decode_window (Nat.zero_add _).le, List.drop_zero, List.take_length]
      change Except.ok (FieldValue.uint (Integer.decode window)) = _ ↔ _
      rw [hnumber]
      constructor
      · intro h
        cases h
        exact .uint width window
      · intro h
        cases h
        rfl
  | bool =>
      obtain ⟨byte, rfl⟩ := List.length_eq_one_iff.mp hlength
      constructor
      · intro h
        obtain ⟨flag, hflag, rfl⟩ := map_eq_ok_iff.mp h
        obtain rfl := Flag.encode_of_decode hflag
        cases flag with
        | false => exact .no
        | true => exact .yes
      · intro h
        cases h with
        | no => rfl
        | yes => rfl
  | enum table =>
      obtain ⟨byte, rfl⟩ := List.length_eq_one_iff.mp hlength
      constructor
      · intro h
        obtain ⟨symbol, hsymbol, rfl⟩ := map_eq_ok_iff.mp h
        obtain ⟨before, after, hentries, hbefore⟩ := EnumTable.decode_eq_ok_iff.mp hsymbol
        exact .enum hentries hbefore
      · intro h
        cases h with
        | enum hentries hbefore =>
            exact map_eq_ok_iff.mpr
              ⟨_, EnumTable.decode_eq_ok_iff.mpr ⟨_, _, hentries, hbefore⟩, rfl⟩
  | address =>
      rw [decode_address_eq_ok_iff]
      constructor
      · rintro ⟨address, rfl, rfl⟩
        exact .address address
      · intro h
        cases h with
        | address value => exact ⟨value, rfl, rfl⟩
  | text width =>
      change (Text.decode window).map FieldValue.text = _ ↔ _
      rw [map_eq_ok_iff]
      simp only [Text.decode_eq_ok_iff, Bytes.trimZeros_eq_rdropWhile]
      constructor
      · rintro ⟨content, hcontent, rfl⟩
        exact .text hcontent
      · intro h
        cases h with
        | text hcontent => exact ⟨_, hcontent, rfl⟩
  | padding width =>
      change (Bytes.checkPadding window).map (fun _ => FieldValue.padding) = _ ↔ _
      constructor
      · intro h
        obtain ⟨⟨⟩, hpadding, rfl⟩ := map_eq_ok_iff.mp h
        rw [Bytes.checkPadding_eq_ok_iff.mp hpadding]
        exact .padding width window.length
      · intro h
        cases h with
        | padding _ count =>
            refine map_eq_ok_iff.mpr ⟨(), Bytes.checkPadding_eq_ok_iff.mpr ?_, rfl⟩
            rw [List.length_replicate]
            rfl

theorem decode_eq_error_iff_refuses (hlength : window.length = type.width) :
    type.decode window = .error cause ↔ type.Refuses window cause := by
  cases type with
  | uint width => exact iff_of_false nofun nofun
  | bool =>
      obtain ⟨byte, rfl⟩ := List.length_eq_one_iff.mp hlength
      change (Flag.decode byte).map FieldValue.bool = _ ↔ _
      rw [map_eq_error_iff, Flag.decode_eq_error_iff]
      constructor
      · rintro ⟨h0, h1, rfl⟩
        exact .bool h0 h1
      · intro h
        cases h with
        | bool h0 h1 => exact ⟨h0, h1, rfl⟩
  | enum table =>
      obtain ⟨byte, rfl⟩ := List.length_eq_one_iff.mp hlength
      change (table.decode byte).map FieldValue.enum = _ ↔ _
      rw [map_eq_error_iff, EnumTable.decode_eq_error_iff]
      constructor
      · rintro ⟨hbyte, rfl⟩
        exact .enum hbyte
      · intro h
        cases h with
        | enum hbyte => exact ⟨hbyte, rfl⟩
  | address =>
      rw [decode_address_eq_ok_iff.mpr ⟨⟨window, hlength⟩, rfl, rfl⟩]
      exact iff_of_false nofun nofun
  | text width =>
      change (Text.decode window).map FieldValue.text = _ ↔ _
      rw [map_eq_error_iff, Text.decode_eq_error_iff]
      constructor
      · rintro ⟨hcontent, rfl⟩
        exact .text hcontent
      · intro h
        cases h with
        | text hcontent => exact ⟨hcontent, rfl⟩
  | padding width =>
      change (Bytes.checkPadding window).map (fun _ => FieldValue.padding) = _ ↔ _
      rw [map_eq_error_iff, Bytes.checkPadding_eq_error_iff]
      constructor
      · rintro ⟨index, value, after, rfl, hvalue, rfl⟩
        exact .padding hvalue
      · intro h
        cases h with
        | padding hvalue => exact ⟨_, _, _, rfl, hvalue, rfl⟩

/-- Legal are the bytes that stand for something. -/
theorem legal_iff_exists_reads (hlength : window.length = type.width) :
    type.Legal window ↔ ∃ value, type.Reads window value := by
  cases type with
  | uint width => exact iff_of_true trivial ⟨_, .uint width window⟩
  | bool =>
      constructor
      · rintro (rfl | rfl)
        · exact ⟨_, .no⟩
        · exact ⟨_, .yes⟩
      · rintro ⟨value, h⟩
        cases h with
        | no => exact .inl rfl
        | yes => exact .inr rfl
  | enum table =>
      constructor
      · rintro ⟨byte, hbyte, rfl⟩
        cases hread : table.decode byte with
        | ok symbol =>
            obtain ⟨before, after, hentries, hbefore⟩ := EnumTable.decode_eq_ok_iff.mp hread
            exact ⟨_, .enum hentries hbefore⟩
        | error cause => exact absurd hbyte (EnumTable.decode_eq_error_iff.mp hread).1
      · rintro ⟨value, h⟩
        cases h with
        | enum hentries hbefore =>
            refine ⟨_, ?_, rfl⟩
            rw [hentries, List.map_append, List.map_cons]
            exact List.mem_append_right _ List.mem_cons_self
  | address => exact iff_of_true trivial ⟨_, .address ⟨window, hlength⟩⟩
  | text width =>
      constructor
      · rintro ⟨content, hcontent⟩
        exact ⟨_, .text hcontent⟩
      · rintro ⟨value, h⟩
        cases h with
        | text hcontent => exact ⟨_, hcontent⟩
  | padding width =>
      constructor
      · intro h
        have hzeros : window = List.replicate window.length 0 := List.eq_replicate_iff.mpr ⟨rfl, h⟩
        rw [hzeros]
        exact ⟨_, .padding width window.length⟩
      · rintro ⟨value, h⟩
        cases h with
        | padding _ count => exact fun byte hbyte => List.eq_of_mem_replicate hbyte

theorem exists_decode_iff_legal (hlength : window.length = type.width) :
    (∃ value, type.decode window = .ok value) ↔ type.Legal window := by
  rw [legal_iff_exists_reads hlength]
  exact exists_congr fun value => decode_eq_ok_iff_reads hlength

theorem exists_refuses_of_not_legal (hlength : window.length = type.width)
    (h : ¬ type.Legal window) : ∃ cause, type.Refuses window cause := by
  cases hread : type.decode window with
  | ok value => exact absurd ((exists_decode_iff_legal hlength).mp ⟨value, hread⟩) h
  | error cause => exact ⟨cause, (decode_eq_error_iff_refuses hlength).mp hread⟩

end FieldType

namespace Field

/-- Whether the bytes of the field at index `i` are legal. Behind the last field nothing is asked. -/
def LegalAt (fields : List Field) (raw : Bytes) (i : Nat) : Prop :=
  ∀ field ∈ fields[i]?, field.type.Legal (bytesAt raw (offsetAt fields i) field.type.width)

variable {field : Field} {fields : List Field} {raw : Bytes} {offset i k : Nat}

theorem bytesAt_cons_succ (width : Nat) :
    bytesAt raw (offsetAt (field :: fields) (i + 1)) width =
      bytesAt (raw.drop field.type.width) (offsetAt fields i) width := by
  rw [bytesAt, bytesAt, offsetAt_cons_succ, List.drop_drop]

theorem legalAt_cons_zero :
    LegalAt (field :: fields) raw 0 ↔ field.type.Legal (raw.take field.type.width) := by
  simp [LegalAt, bytesAt]

theorem legalAt_cons_succ :
    LegalAt (field :: fields) raw (i + 1) ↔ LegalAt fields (raw.drop field.type.width) i := by
  simp only [LegalAt, List.getElem?_cons_succ, bytesAt_cons_succ]

theorem legalAt_take (h : i < k) : LegalAt (fields.take k) raw i ↔ LegalAt fields raw i := by
  rw [LegalAt, LegalAt, List.getElem?_take_of_lt h, offsetAt_take h.le]

/-- The fields are read exactly if the bytes of each of them are legal. -/
theorem exists_decodeAll_iff (offset : Nat) (hlength : totalWidth fields ≤ raw.length) :
    (∃ entries, decodeAll fields offset raw = .ok entries) ↔ ∀ i, LegalAt fields raw i := by
  induction fields generalizing offset raw with
  | nil => exact iff_of_true ⟨[], rfl⟩ nofun
  | cons field fields ih =>
      rw [totalWidth_cons] at hlength
      have hwindow : (raw.take field.type.width).length = field.type.width :=
        List.length_take_of_le (Nat.le_of_add_right_le hlength)
      have hrest : totalWidth fields ≤ (raw.drop field.type.width).length := by
        rw [List.length_drop]
        omega
      have hfirst := FieldType.exists_decode_iff_legal hwindow
      constructor
      · rintro ⟨entries, h⟩ i
        obtain ⟨value, rest, hvalue, hentries, -⟩ := decodeAll_cons_eq_ok_iff.mp h
        cases i with
        | zero => exact legalAt_cons_zero.mpr (hfirst.mp ⟨value, hvalue⟩)
        | succ i => exact legalAt_cons_succ.mpr ((ih _ hrest).mp ⟨rest, hentries⟩ i)
      · intro h
        obtain ⟨value, hvalue⟩ := hfirst.mpr (legalAt_cons_zero.mp (h 0))
        obtain ⟨rest, hentries⟩ := (ih _ hrest).mpr fun i => legalAt_cons_succ.mp (h (i + 1))
        exact ⟨_, decodeAll_cons_eq_ok_iff.mpr ⟨value, rest, hvalue, hentries, rfl⟩⟩

/-- The entry at an index has the name of the field there and what the bytes of the field stand
for. -/
theorem reads_of_decodeAll {entries : List (String × FieldValue)}
    (hlength : totalWidth fields ≤ raw.length) (h : decodeAll fields offset raw = .ok entries) :
    entries.length = fields.length ∧ ∀ i (field : Field), fields[i]? = some field →
      ∃ value, entries[i]? = some (field.name, value) ∧
        field.type.Reads (bytesAt raw (offsetAt fields i) field.type.width) value := by
  induction fields generalizing offset raw entries with
  | nil =>
      cases h
      exact ⟨rfl, nofun⟩
  | cons first fields ih =>
      rw [totalWidth_cons] at hlength
      have hwindow : (raw.take first.type.width).length = first.type.width :=
        List.length_take_of_le (Nat.le_of_add_right_le hlength)
      obtain ⟨value, rest, hvalue, hrest, rfl⟩ := decodeAll_cons_eq_ok_iff.mp h
      obtain ⟨hcount, hreads⟩ := ih (by rw [List.length_drop]; omega) hrest
      refine ⟨congrArg (· + 1) hcount, ?_⟩
      intro i field hfield
      cases i with
      | zero =>
          cases hfield
          exact ⟨value, rfl, (FieldType.decode_eq_ok_iff_reads hwindow).mp hvalue⟩
      | succ i =>
          rw [bytesAt_cons_succ]
          exact hreads i field hfield

theorem length_bytesAt (hlength : totalWidth fields ≤ raw.length)
    (hfield : fields[k]? = some field) :
    (bytesAt raw (offsetAt fields k) field.type.width).length = field.type.width :=
  length_window ((offsetAt_add_width_le hfield).trans hlength)

/-- The first field whose bytes are not legal is the one that is reported. -/
theorem decodeAll_of_first_illegal (offset : Nat) (hlength : totalWidth fields ≤ raw.length)
    (hfield : fields[k]? = some field) (hbefore : ∀ i < k, LegalAt fields raw i)
    (hillegal : ¬ field.type.Legal (bytesAt raw (offsetAt fields k) field.type.width)) :
    ∃ source, field.type.Refuses (bytesAt raw (offsetAt fields k) field.type.width) source ∧
      decodeAll fields offset raw =
        .error (.field field.name (offset + offsetAt fields k) source) := by
  have hwindow := length_bytesAt hlength hfield
  obtain ⟨source, hsource⟩ := FieldType.exists_refuses_of_not_legal hwindow hillegal
  have hfront : ∃ entries, decodeAll (fields.take k) offset raw = .ok entries := by
    apply (exists_decodeAll_iff offset ?_).mpr
    · intro i
      by_cases hi : i < k
      · exact (legalAt_take hi).mpr (hbefore i hi)
      · intro other hother
        rw [List.getElem?_eq_none (by rw [List.length_take]; omega)] at hother
        cases hother
    · have hplace := offsetAt_add_width_le hfield
      change offsetAt fields k ≤ raw.length
      omega
  refine ⟨source, hsource, decodeAll_eq_error_iff.mpr ?_⟩
  exact ⟨fields.take k, field, fields.drop (k + 1), source, eq_take_append_of_getElem? hfield,
    hfront, (FieldType.decode_eq_error_iff_refuses hwindow).mpr hsource, rfl⟩

end Field

namespace Schema

def LegalAt (schema : Schema) (raw : Bytes) (i : Nat) : Prop := Field.LegalAt schema.fields raw i

variable {schema : Schema} {raw : Bytes}

/-- A buffer of the right length is read exactly if the bytes of every field are legal. Each entry
then has the name of its field and what the bytes of this field stand for; otherwise the first field
with illegal bytes is reported, with its offset and with the cause that lies in these bytes. -/
theorem outcome_of_windows (hlength : raw.length = schema.width) :
    ((∃ record, schema.decode raw = .ok record) ↔ ∀ i, schema.LegalAt raw i) ∧
    (∀ record, schema.decode raw = .ok record →
      record.entries.length = schema.fields.length ∧
      ∀ i (field : Field), schema.fields[i]? = some field →
        ∃ value, record.entries[i]? = some (field.name, value) ∧
          field.type.Reads (bytesAt raw (schema.offsetAt i) field.type.width) value) ∧
    ∀ k field, schema.fields[k]? = some field → (∀ i < k, schema.LegalAt raw i) →
      ¬ field.type.Legal (bytesAt raw (schema.offsetAt k) field.type.width) →
        ∃ source,
          field.type.Refuses (bytesAt raw (schema.offsetAt k) field.type.width) source ∧
          schema.decode raw = .error (.field field.name (schema.offsetAt k) source) := by
  refine ⟨?_, ?_, ?_⟩
  · rw [decode_eq hlength]
    refine Iff.trans ?_ (Field.exists_decodeAll_iff 0 hlength.ge)
    simp only [map_eq_ok_iff]
    constructor
    · rintro ⟨_, entries, h, rfl⟩
      exact ⟨entries, h⟩
    · rintro ⟨entries, h⟩
      exact ⟨⟨entries⟩, entries, h, rfl⟩
  · intro record h
    exact Field.reads_of_decodeAll hlength.ge (decode_eq_ok_iff.mp h).2
  · intro k field hfield hbefore hillegal
    obtain ⟨source, hsource, hread⟩ :=
      Field.decodeAll_of_first_illegal 0 hlength.ge hfield hbefore hillegal
    refine ⟨source, hsource, ?_⟩
    rw [decode_eq hlength, hread, Nat.zero_add]
    rfl

/-- Of a byte outside its table and a flag that is two, the first is reported. -/
theorem outcome_of_windows_two_faults :
    decode ⟨"mixed", [⟨"n", .uint 2⟩, ⟨"", .padding 0⟩, ⟨"n", .text 3⟩,
        ⟨"state", .enum ⟨"switch", [(0, "Off"), (1, "On")]⟩⟩, ⟨"live", .bool⟩]⟩
      [5, 0, 97, 0, 98, 9, 2] = .error (.field "state" 5 (.invalidEnum "switch" 9)) := by
  have hread := (@outcome_of_windows ⟨"mixed", [⟨"n", .uint 2⟩, ⟨"", .padding 0⟩, ⟨"n", .text 3⟩,
    ⟨"state", .enum ⟨"switch", [(0, "Off"), (1, "On")]⟩⟩, ⟨"live", .bool⟩]⟩
    [5, 0, 97, 0, 98, 9, 2] rfl).2.2
  have hbefore : ∀ i < 3, LegalAt ⟨"mixed", [⟨"n", .uint 2⟩, ⟨"", .padding 0⟩, ⟨"n", .text 3⟩,
      ⟨"state", .enum ⟨"switch", [(0, "Off"), (1, "On")]⟩⟩, ⟨"live", .bool⟩]⟩
      [5, 0, 97, 0, 98, 9, 2] i := by
    intro i hi field hfield
    match i with
    | 0 => cases hfield; trivial
    | 1 => cases hfield; exact nofun
    | 2 => cases hfield; exact ⟨"a\x00b", by decide⟩
  have hillegal : ¬ (FieldType.enum ⟨"switch", [(0, "Off"), (1, "On")]⟩).Legal [9] := by
    rintro ⟨byte, hbyte, hwindow⟩
    cases hwindow
    simp at hbyte
  obtain ⟨source, hsource, herror⟩ := hread 3 _ rfl hbefore hillegal
  cases hsource
  exact herror

end Schema

end VaultWire
