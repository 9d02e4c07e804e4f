import VaultWire.Proofs.Command.RoundTrip
import VaultWire.Proofs.Window

/-!
# The format of payloads

The format as it is documented, in terms of the bytes alone: the first byte, how many bytes follow
it, which of them are restricted, and at which offset each argument stands. A payload unpacks
exactly if it has this format, and to the command that stands there.
-/

namespace VaultWire

theorem Status.byte_le (status : Status) : status.byte ≤ 4 := by
  cases status <;> decide

theorem Status.exists_byte_eq {byte : UInt8} (h : byte ≤ 4) :
    ∃ status : Status, status.byte = byte := by
  have hbyte : byte = 0 ∨ byte = 1 ∨ byte = 2 ∨ byte = 3 ∨ byte = 4 := by grind
  rcases hbyte with rfl | rfl | rfl | rfl | rfl
  · exact ⟨.waiting, rfl⟩
  · exact ⟨.active, rfl⟩
  · exact ⟨.expired, rfl⟩
  · exact ⟨.paused, rfl⟩
  · exact ⟨.canceled, rfl⟩

theorem Selector.byte_le (selector : Selector) : selector.byte ≤ 2 := by
  cases selector <;> decide

theorem Selector.exists_byte_eq {byte : UInt8} (h : byte ≤ 2) :
    ∃ selector : Selector, selector.byte = byte := by
  have hbyte : byte = 0 ∨ byte = 1 ∨ byte = 2 := by grind
  rcases hbyte with rfl | rfl | rfl
  · exact ⟨.status, rfl⟩
  · exact ⟨.fee, rfl⟩
  · exact ⟨.admin, rfl⟩

namespace Payload

open Bytes

/-- The first byte of each operation and the number of bytes after it. -/
def argumentLengths : List (UInt8 × Nat) :=
  [(0, 8), (1, 8), (2, 1), (4, 1), (5, 9), (6, 9), (12, 42), (13, 88), (14, 0), (15, 26), (17, 8),
    (18, 0), (19, 8)]

def IsUtf8 (bytes : Bytes) : Prop := (⟨bytes.toArray⟩ : ByteArray).IsValidUTF8

/-- The restrictions on the bytes of a payload. -/
@[mk_iff]
structure WellFormed (first : UInt8) (arguments : Bytes) : Prop where
  length : (first, arguments.length) ∈ argumentLengths
  decimals : first = 2 → byteAt arguments 0 ≤ 18
  isAuthorized : first = 12 → byteAt arguments 0 ≤ 1
  initStatus : first = 12 → byteAt arguments 1 ≤ 4
  initLabel : first = 12 → IsUtf8 (labelAt arguments 10)
  flags : first = 13 → ∀ place ∈ [0, 1, 2, 3], byteAt arguments place ≤ 1
  selector : first = 13 → byteAt arguments 4 ≤ 2
  status : first = 13 → byteAt arguments 5 ≤ 4
  padding : first = 13 → byteAt arguments 6 = 0 ∧ byteAt arguments 7 = 0
  label : first = 13 → IsUtf8 (labelAt arguments 56)

/-- Whether a command is that of the first byte, with the arguments that stand at their offsets. -/
def Spells (first : UInt8) (arguments : Bytes) : Command → Prop
  | .deposit amount => first = 0 ∧ amount.toNat = numberAt arguments 0 8
  | .withdraw amount => first = 1 ∧ amount.toNat = numberAt arguments 0 8
  | .token2022Mint decimals => first = 2 ∧ decimals = byteAt arguments 0
  | .token2022InitAccount reserved => first = 4 ∧ reserved = byteAt arguments 0
  | .tokenDeposit decimals amount =>
    first = 5 ∧ decimals = byteAt arguments 0 ∧ amount.toNat = numberAt arguments 1 8
  | .tokenWithdraw decimals amount =>
    first = 6 ∧ decimals = byteAt arguments 0 ∧ amount.toNat = numberAt arguments 1 8
  | .initConfig isAuthorized status fee label =>
    first = 12 ∧ isAuthorized = (byteAt arguments 0 == 1) ∧ status.byte = byteAt arguments 1 ∧
      fee.toNat = numberAt arguments 2 8 ∧ Text.utf8 label = labelAt arguments 10
  | .updateConfig update =>
    first = 13 ∧ update.flags.toList = [0, 1, 2, 3].map (byteAt arguments · == 1) ∧
      update.selector.byte = byteAt arguments 4 ∧ update.status.byte = byteAt arguments 5 ∧
      update.words.toList.map UInt32.toNat = [8, 12, 16, 20].map (numberAt arguments · 4) ∧
      update.amounts.toList.map UInt64.toNat = [24, 32, 40, 48].map (numberAt arguments · 8) ∧
      Text.utf8 update.label = labelAt arguments 56
  | .closeConfig => first = 14
  | .escrowMake decimalsX amountX decimalsY amountY id =>
    first = 15 ∧ decimalsX = byteAt arguments 0 ∧ amountX.toNat = numberAt arguments 1 8 ∧
      decimalsY = byteAt arguments 9 ∧ amountY.toNat = numberAt arguments 10 8 ∧
      id.toNat = numberAt arguments 18 8
  | .escrowWithdraw id => first = 17 ∧ id.toNat = numberAt arguments 0 8
  | .escrowCancel => first = 18
  | .configResize newSize => first = 19 ∧ newSize.toNat = numberAt arguments 0 8

variable {arguments : Bytes}

theorem argumentLengths_eq :
    argumentLengths = Opcode.all.map fun opcode => (opcode.byte, opcode.schema.width) := rfl

theorem mem_argumentLengths_iff {first : UInt8} {length : Nat} :
    (first, length) ∈ argumentLengths ↔
      ∃ opcode : Opcode, opcode.byte = first ∧ opcode.schema.width = length := by
  have hall : ∀ opcode : Opcode, opcode ∈ Opcode.all := by
    intro opcode
    cases opcode <;> decide
  rw [argumentLengths_eq, List.mem_map]
  simp only [hall, true_and, Prod.mk.injEq]

theorem isUtf8_utf8 (text : String) : IsUtf8 (Text.utf8 text) :=
  Text.isValidUTF8_iff.mpr ⟨text, rfl⟩

/-- The bytes of a command are restricted no further than its own values are. -/
theorem standAt_arguments_iff (command : Command)
    (hlength : arguments.length = command.opcode.schema.width) :
    command.check = .ok () ∧
        Field.StandAt arguments 0 command.opcode.schema.fields command.arguments ↔
      WellFormed command.opcode.byte arguments ∧ Spells command.opcode.byte arguments command := by
  have hknown : (command.opcode.byte, arguments.length) ∈ argumentLengths :=
    mem_argumentLengths_iff.mpr ⟨command.opcode, rfl, hlength.symm⟩
  -- With the length known in each case, every window lies inside the bytes.
  cases command <;>
    simp only [Command.opcode, Opcode.schema, Schema.width, Field.totalWidth, List.map_cons,
      List.map_nil, List.sum_cons, List.sum_nil, FieldType.width, Nat.reduceAdd,
      Text.labelWidth] at hlength <;>
    simp (disch := omega) only [Command.opcode, Command.arguments, Opcode.schema, Opcode.byte,
      Field.StandAt, FieldType.width, Text.labelWidth, Quad.toList, List.map_cons, List.map_nil,
      List.cons_append, List.nil_append, Nat.zero_add, Nat.reduceAdd, decode_byte_iff,
      decode_word32_iff, decode_word64_iff, decode_bool_iff, decode_status_iff,
      decode_selector_iff, decode_padding_iff, decode_label_iff, wellFormed_iff,
      Spells] at hknown ⊢
  case token2022Mint decimals =>
    have hdecimals : decimals = byteAt arguments 0 → (decimals ≤ 18 ↔ byteAt arguments 0 ≤ 18) :=
      fun h => by rw [h]
    simpa [Command.check_eq_ok_iff, hknown] using hdecimals
  case initConfig isAuthorized status fee label =>
    have hstatus : status.byte = byteAt arguments 1 → byteAt arguments 1 ≤ 4 :=
      fun h => h ▸ status.byte_le
    have hlabel : Text.utf8 label = labelAt arguments 10 → IsUtf8 (labelAt arguments 10) :=
      fun h => h ▸ isUtf8_utf8 label
    simp only [Command.check_eq_ok_iff, reduceCtorEq, hknown, IsEmpty.forall_iff, implies_true,
      forall_const, true_and, and_true]
    tauto
  case updateConfig update =>
    have hselector : update.selector.byte = byteAt arguments 4 → byteAt arguments 4 ≤ 2 :=
      fun h => h ▸ update.selector.byte_le
    have hstatus : update.status.byte = byteAt arguments 5 → byteAt arguments 5 ≤ 4 :=
      fun h => h ▸ update.status.byte_le
    have hlabel : Text.utf8 update.label = labelAt arguments 56 → IsUtf8 (labelAt arguments 56) :=
      fun h => h ▸ isUtf8_utf8 update.label
    simp only [Command.check_eq_ok_iff, reduceCtorEq, hknown, IsEmpty.forall_iff, implies_true,
      forall_const, true_and, and_true, List.forall_mem_cons, List.not_mem_nil, List.cons.injEq]
    tauto
  all_goals simp [Command.check, hknown]

theorem exists_utf8_of_isUtf8 {bytes : Bytes} (h : IsUtf8 bytes) :
    ∃ text, Text.utf8 text = bytes :=
  Text.isValidUTF8_iff.mp h

/-- Every well-formed payload spells a command. -/
theorem WellFormed.exists_spells {first : UInt8} (h : WellFormed first arguments) :
    ∃ command, Spells first arguments command := by
  obtain ⟨opcode, rfl, -⟩ := mem_argumentLengths_iff.mp h.length
  cases opcode
  case deposit =>
    obtain ⟨amount, hamount⟩ := exists_word64 arguments 0
    exact ⟨.deposit amount, rfl, hamount⟩
  case withdraw =>
    obtain ⟨amount, hamount⟩ := exists_word64 arguments 0
    exact ⟨.withdraw amount, rfl, hamount⟩
  case token2022Mint => exact ⟨.token2022Mint _, rfl, rfl⟩
  case token2022InitAccount => exact ⟨.token2022InitAccount _, rfl, rfl⟩
  case tokenDeposit =>
    obtain ⟨amount, hamount⟩ := exists_word64 arguments 1
    exact ⟨.tokenDeposit _ amount, rfl, rfl, hamount⟩
  case tokenWithdraw =>
    obtain ⟨amount, hamount⟩ := exists_word64 arguments 1
    exact ⟨.tokenWithdraw _ amount, rfl, rfl, hamount⟩
  case initConfig =>
    obtain ⟨status, hstatus⟩ := Status.exists_byte_eq (h.initStatus rfl)
    obtain ⟨fee, hfee⟩ := exists_word64 arguments 2
    obtain ⟨label, hlabel⟩ := exists_utf8_of_isUtf8 (h.initLabel rfl)
    exact ⟨.initConfig _ status fee label, rfl, rfl, hstatus, hfee, hlabel⟩
  case updateConfig =>
    obtain ⟨selector, hselector⟩ := Selector.exists_byte_eq (h.selector rfl)
    obtain ⟨status, hstatus⟩ := Status.exists_byte_eq (h.status rfl)
    choose word hword using exists_word32 arguments
    choose amount hamount using exists_word64 arguments
    obtain ⟨label, hlabel⟩ := exists_utf8_of_isUtf8 (h.label rfl)
    refine ⟨.updateConfig
      { flags := ⟨_, _, _, _⟩, selector, status, words := ⟨word 8, word 12, word 16, word 20⟩
        amounts := ⟨amount 24, amount 32, amount 40, amount 48⟩, label },
      rfl, rfl, hselector, hstatus, ?_, ?_, hlabel⟩
    · simp [Quad.toList, hword]
    · simp [Quad.toList, hamount]
  case closeConfig => exact ⟨.closeConfig, rfl⟩
  case escrowMake =>
    obtain ⟨amountX, hamountX⟩ := exists_word64 arguments 1
    obtain ⟨amountY, hamountY⟩ := exists_word64 arguments 10
    obtain ⟨id, hid⟩ := exists_word64 arguments 18
    exact ⟨.escrowMake _ amountX _ amountY id, rfl, rfl, hamountX, rfl, hamountY, hid⟩
  case escrowWithdraw =>
    obtain ⟨id, hid⟩ := exists_word64 arguments 0
    exact ⟨.escrowWithdraw id, rfl, hid⟩
  case escrowCancel => exact ⟨.escrowCancel, rfl⟩
  case configResize =>
    obtain ⟨newSize, hnewSize⟩ := exists_word64 arguments 0
    exact ⟨.configResize newSize, rfl, hnewSize⟩

theorem byte_of_spells {first : UInt8} {command : Command} (h : Spells first arguments command) :
    command.opcode.byte = first := by
  cases command <;> first | exact h.symm | exact h.1.symm

theorem unpack_eq_ok_iff_spells {bytes : Bytes} {command : Command} :
    Command.unpack bytes = .ok command ↔
      ∃ first arguments, bytes = first :: arguments ∧ WellFormed first arguments ∧
        Spells first arguments command := by
  rw [Command.unpack_eq_ok_iff]
  have hcount := command.acceptAll_arguments.length_eq.symm
  constructor
  · rintro ⟨hcheck, arguments, rfl, hdecode⟩
    obtain ⟨hlength, hstand⟩ := (Schema.decode_eq_record_iff hcount).mp hdecode
    exact ⟨_, arguments, rfl, (standAt_arguments_iff command hlength).mp ⟨hcheck, hstand⟩⟩
  · rintro ⟨first, arguments, rfl, hformed, hspells⟩
    obtain rfl := byte_of_spells hspells
    obtain ⟨opcode, hopcode, hlength⟩ := mem_argumentLengths_iff.mp hformed.length
    obtain rfl := Opcode.byte_injective hopcode
    obtain ⟨hcheck, hstand⟩ :=
      (standAt_arguments_iff command hlength.symm).mpr ⟨hformed, hspells⟩
    exact ⟨hcheck, arguments, rfl,
      (Schema.decode_eq_record_iff hcount).mpr ⟨hlength.symm, hstand⟩⟩

/-- The payloads that unpack are the well-formed ones, and each unpacks to the command it spells. -/
theorem unpack_iff_wellFormed (bytes : Bytes) :
    ((∃ command, Command.unpack bytes = .ok command) ↔
      ∃ first arguments, bytes = first :: arguments ∧ WellFormed first arguments) ∧
    ∀ command, Command.unpack bytes = .ok command →
      ∃ first arguments, bytes = first :: arguments ∧ Spells first arguments command := by
  constructor
  · constructor
    · rintro ⟨command, h⟩
      obtain ⟨first, arguments, hbytes, hformed, -⟩ := unpack_eq_ok_iff_spells.mp h
      exact ⟨first, arguments, hbytes, hformed⟩
    · rintro ⟨first, arguments, hbytes, hformed⟩
      obtain ⟨command, hspells⟩ := hformed.exists_spells
      exact ⟨command, unpack_eq_ok_iff_spells.mpr ⟨first, arguments, hbytes, hformed, hspells⟩⟩
  · intro command h
    obtain ⟨first, arguments, hbytes, -, hspells⟩ := unpack_eq_ok_iff_spells.mp h
    exact ⟨first, arguments, hbytes, hspells⟩

theorem unpack_iff_wellFormed_label :
    ∃ first arguments, [12, 1, 1, 5, 0, 0, 0, 0, 0, 0, 0, 97, 98] ++ Bytes.zeros 30 =
      first :: arguments ∧ Spells first arguments (.initConfig true .active 5 "ab") :=
  (unpack_iff_wellFormed _).2 (.initConfig true .active 5 "ab") (by rfl)

end Payload

end VaultWire
