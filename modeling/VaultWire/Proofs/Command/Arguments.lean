import VaultWire.Command.Payload
import VaultWire.Proofs.Accepts

/-!
# Arguments by position and by name

A command lists its arguments by position and is found again by name. Every list of values that the
layout of an operation accepts is the list of arguments of one of its commands, so the look-ups by
name succeed on every record that was read with the layout.
-/

namespace VaultWire

namespace Command

def record (command : Command) : Record := command.opcode.schema.record command.arguments

theorem ofRecord_record (command : Command) :
    ofRecord command.opcode command.record = .ok command := by
  cases command <;>
    simp [ofRecord, record, Schema.record, opcode, arguments, Opcode.schema, Record.word,
      Record.uint, Record.bool, Record.symbol, Record.text, Record.get_cons, FieldValue.word,
      Word.narrow_toNat, Quad.toList, Quad.traverse, ConfigUpdate.flagNames,
      ConfigUpdate.wordNames, ConfigUpdate.amountNames, bind, Except.bind, pure, Except.pure]

theorem acceptAll_arguments (command : Command) :
    Field.AcceptAll command.opcode.schema.fields command.arguments := by
  cases command <;> simp [opcode, arguments, Opcode.schema, Quad.toList]

/-- The layout of an operation accepts the arguments of its commands and nothing else. -/
theorem exists_of_acceptAll {opcode : Opcode} {values : List FieldValue}
    (h : Field.AcceptAll opcode.schema.fields values) :
    ∃ command : Command, command.opcode = opcode ∧ command.arguments = values := by
  cases opcode <;>
    simp only [Opcode.schema, Field.acceptAll_cons_iff, Field.acceptAll_nil_iff,
      FieldType.accepts_byte_iff, FieldType.accepts_word32_iff, FieldType.accepts_word64_iff,
      FieldType.accepts_bool_iff, FieldType.accepts_text_iff, FieldType.accepts_padding_iff,
      FieldType.accepts_status_iff, FieldType.accepts_selector_iff] at h
  case deposit =>
    obtain ⟨_, _, rfl, ⟨amount, rfl⟩, rfl⟩ := h
    exact ⟨.deposit amount, rfl, rfl⟩
  case withdraw =>
    obtain ⟨_, _, rfl, ⟨amount, rfl⟩, rfl⟩ := h
    exact ⟨.withdraw amount, rfl, rfl⟩
  case token2022Mint =>
    obtain ⟨_, _, rfl, ⟨decimals, rfl⟩, rfl⟩ := h
    exact ⟨.token2022Mint decimals, rfl, rfl⟩
  case token2022InitAccount =>
    obtain ⟨_, _, rfl, ⟨reserved, rfl⟩, rfl⟩ := h
    exact ⟨.token2022InitAccount reserved, rfl, rfl⟩
  case tokenDeposit =>
    obtain ⟨_, _, rfl, ⟨decimals, rfl⟩, _, _, rfl, ⟨amount, rfl⟩, rfl⟩ := h
    exact ⟨.tokenDeposit decimals amount, rfl, rfl⟩
  case tokenWithdraw =>
    obtain ⟨_, _, rfl, ⟨decimals, rfl⟩, _, _, rfl, ⟨amount, rfl⟩, rfl⟩ := h
    exact ⟨.tokenWithdraw decimals amount, rfl, rfl⟩
  case initConfig =>
    obtain ⟨_, _, rfl, ⟨isAuthorized, rfl⟩, _, _, rfl, ⟨status, rfl⟩, _, _, rfl, ⟨fee, rfl⟩,
      _, _, rfl, ⟨label, rfl⟩, rfl⟩ := h
    exact ⟨.initConfig isAuthorized status fee label, rfl, rfl⟩
  case updateConfig =>
    obtain ⟨_, _, rfl, ⟨flag0, rfl⟩, _, _, rfl, ⟨flag1, rfl⟩, _, _, rfl, ⟨flag2, rfl⟩,
      _, _, rfl, ⟨flag3, rfl⟩, _, _, rfl, ⟨selector, rfl⟩, _, _, rfl, ⟨status, rfl⟩, _, _, rfl, rfl,
      _, _, rfl, ⟨word0, rfl⟩, _, _, rfl, ⟨word1, rfl⟩, _, _, rfl, ⟨word2, rfl⟩,
      _, _, rfl, ⟨word3, rfl⟩, _, _, rfl, ⟨amount0, rfl⟩, _, _, rfl, ⟨amount1, rfl⟩,
      _, _, rfl, ⟨amount2, rfl⟩, _, _, rfl, ⟨amount3, rfl⟩, _, _, rfl, ⟨label, rfl⟩, rfl⟩ := h
    exact ⟨.updateConfig
      { flags := ⟨flag0, flag1, flag2, flag3⟩, selector, status
        words := ⟨word0, word1, word2, word3⟩
        amounts := ⟨amount0, amount1, amount2, amount3⟩, label }, rfl, rfl⟩
  case closeConfig =>
    exact ⟨.closeConfig, rfl, h.symm⟩
  case escrowMake =>
    obtain ⟨_, _, rfl, ⟨decimalsX, rfl⟩, _, _, rfl, ⟨amountX, rfl⟩, _, _, rfl, ⟨decimalsY, rfl⟩,
      _, _, rfl, ⟨amountY, rfl⟩, _, _, rfl, ⟨id, rfl⟩, rfl⟩ := h
    exact ⟨.escrowMake decimalsX amountX decimalsY amountY id, rfl, rfl⟩
  case escrowWithdraw =>
    obtain ⟨_, _, rfl, ⟨id, rfl⟩, rfl⟩ := h
    exact ⟨.escrowWithdraw id, rfl, rfl⟩
  case escrowCancel =>
    exact ⟨.escrowCancel, rfl, h.symm⟩
  case configResize =>
    obtain ⟨_, _, rfl, ⟨newSize, rfl⟩, rfl⟩ := h
    exact ⟨.configResize newSize, rfl, rfl⟩

end Command

end VaultWire
