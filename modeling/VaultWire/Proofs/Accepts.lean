import VaultWire.Account.Status
import VaultWire.Command.Selector
import VaultWire.Proofs.Schema

/-!
# The values of a layout

Which values a field accepts, type by type: the words of its width, the flags, the addresses, the
texts, and of each table the symbols of its own type. With them the lists of values that a layout
accepts can be read off the layout, and a record's look-ups are comparisons of names.
-/

namespace VaultWire

namespace Record

theorem get?_cons (name key : String) (value : FieldValue) (rest : List (String × FieldValue)) :
    get? ⟨(name, value) :: rest⟩ key = if key = name then some value else get? ⟨rest⟩ key := by
  simp only [get?, List.lookup_cons]
  by_cases h : key = name
  · simp [h]
  · simp [h, beq_eq_false_iff_ne.mpr h]

theorem get_cons (name key : String) (value : FieldValue) (rest : List (String × FieldValue)) :
    get ⟨(name, value) :: rest⟩ key = if key = name then .ok value else get ⟨rest⟩ key := by
  rw [get, get?_cons]
  by_cases h : key = name
  · simp [h]
  · simp only [h, if_false, get]

end Record

namespace FieldType

variable {value : FieldValue}

theorem accepts_word_iff {α : Type} [Word α] :
    (uint (Word.width α)).Accepts value ↔ ∃ w : α, value = .word w := by
  constructor
  · intro h
    cases value <;> try exact h.elim
    case uint n =>
      obtain ⟨w, hw⟩ := Word.exists_toNat_eq h
      exact ⟨w, congrArg FieldValue.uint hw.symm⟩
  · rintro ⟨w, rfl⟩
    exact Word.toNat_lt w

@[simp] theorem accepts_byte_iff : (uint 1).Accepts value ↔ ∃ w : UInt8, value = .word w :=
  accepts_word_iff (α := UInt8)

@[simp] theorem accepts_word32_iff : (uint 4).Accepts value ↔ ∃ w : UInt32, value = .word w :=
  accepts_word_iff (α := UInt32)

@[simp] theorem accepts_word64_iff : (uint 8).Accepts value ↔ ∃ w : UInt64, value = .word w :=
  accepts_word_iff (α := UInt64)

@[simp] theorem accepts_bool_iff : bool.Accepts value ↔ ∃ flag, value = .bool flag := by
  constructor
  · intro h
    cases value <;> try exact h.elim
    case bool flag => exact ⟨flag, rfl⟩
  · rintro ⟨flag, rfl⟩
    trivial

@[simp] theorem accepts_address_iff :
    address.Accepts value ↔ ∃ a : Address, value = .address a := by
  constructor
  · intro h
    cases value <;> try exact h.elim
    case address a => exact ⟨a, rfl⟩
  · rintro ⟨a, rfl⟩
    trivial

@[simp] theorem accepts_text_iff {width : Nat} :
    (text width).Accepts value ↔ ∃ content, value = .text content := by
  constructor
  · intro h
    cases value <;> try exact h.elim
    case text content => exact ⟨content, rfl⟩
  · rintro ⟨content, rfl⟩
    trivial

@[simp] theorem accepts_padding_iff {width : Nat} :
    (padding width).Accepts value ↔ value = .padding := by
  constructor
  · intro h
    cases value <;> try exact h.elim
    case padding => rfl
  · rintro rfl
    trivial

theorem accepts_enum_iff {α : Type} {table : EnumTable} {members : List α} {byte : α → UInt8}
    {symbol : α → String} (h : table.Tabulates members byte symbol) :
    (enum table).Accepts value ↔ ∃ a, value = .enum (symbol a) := by
  constructor
  · intro haccepts
    cases value <;> try exact haccepts.elim
    case enum found =>
      obtain ⟨a, rfl⟩ := h.symbol_mem_iff.mp haccepts
      exact ⟨a, rfl⟩
  · rintro ⟨a, rfl⟩
    exact h.symbol_mem_iff.mpr ⟨a, rfl⟩

@[simp] theorem accepts_status_iff :
    (enum Status.table).Accepts value ↔ ∃ status : Status, value = .enum status.symbol :=
  accepts_enum_iff Status.tabulates

@[simp] theorem accepts_selector_iff :
    (enum Selector.table).Accepts value ↔ ∃ selector : Selector, value = .enum selector.symbol :=
  accepts_enum_iff Selector.tabulates

end FieldType

namespace Field

@[simp] theorem acceptAll_nil_iff {values : List FieldValue} : AcceptAll [] values ↔ values = [] :=
  List.forall₂_nil_left_iff

@[simp] theorem acceptAll_cons_iff {field : Field} {fields : List Field}
    {values : List FieldValue} :
    AcceptAll (field :: fields) values ↔
      ∃ value rest, values = value :: rest ∧ field.type.Accepts value ∧ AcceptAll fields rest := by
  rw [AcceptAll, List.forall₂_cons_left_iff]
  refine exists_congr fun value => exists_congr fun rest => ?_
  rw [← and_assoc, and_comm]
  rfl

end Field

end VaultWire
