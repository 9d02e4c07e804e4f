import VaultWire.Proofs.Command.Grammar

/-!
# The bytes of a payload

The payload of each command as it is documented, place by place and without the layouts: the first
byte, then the arguments in their order. What packs is packed to these bytes.
-/

namespace VaultWire.Command

open Wire

/-- The payload as it is documented. -/
def wire : Command → Bytes
  | deposit amount => 0 :: number 8 amount.toNat
  | withdraw amount => 1 :: number 8 amount.toNat
  | token2022Mint decimals => [2, decimals]
  | token2022InitAccount reserved => [4, reserved]
  | tokenDeposit decimals amount => [5, decimals] ++ number 8 amount.toNat
  | tokenWithdraw decimals amount => [6, decimals] ++ number 8 amount.toNat
  | initConfig isAuthorized status fee label =>
    [12, isAuthorized.toUInt8, status.byte] ++ number 8 fee.toNat ++ text 32 label
  | updateConfig update =>
    [13] ++ update.flags.toList.map Bool.toUInt8 ++
      [update.selector.byte, update.status.byte, 0, 0] ++
      update.words.toList.flatMap (fun word => number 4 word.toNat) ++
      update.amounts.toList.flatMap (fun amount => number 8 amount.toNat) ++ text 32 update.label
  | closeConfig => [14]
  | escrowMake decimalsX amountX decimalsY amountY id =>
    [15, decimalsX] ++ number 8 amountX.toNat ++ [decimalsY] ++ number 8 amountY.toNat ++
      number 8 id.toNat
  | escrowWithdraw id => 17 :: number 8 id.toNat
  | escrowCancel => [18]
  | configResize newSize => 19 :: number 8 newSize.toNat

theorem wire_eq_writtenAll (command : Command) :
    command.wire = command.opcode.byte ::
      Field.writtenAll command.opcode.schema.fields command.arguments := by
  cases command <;>
    simp [wire, opcode, arguments, Opcode.schema, Opcode.byte, Quad.toList, Text.labelWidth,
      List.replicate]

theorem pack_eq_ok_iff_wire {command : Command} {bytes : Bytes} :
    command.pack = .ok bytes ↔ command.check = .ok () ∧ bytes = command.wire := by
  have hencode {arguments : Bytes} :
      command.opcode.schema.encode command.arguments = .ok arguments ↔
        arguments = Field.writtenAll command.opcode.schema.fields command.arguments :=
    Schema.encode_eq_ok_iff_written.trans (and_iff_right command.acceptAll_arguments)
  rw [pack_eq_ok_iff, wire_eq_writtenAll]
  simp only [hencode, exists_eq_right]

/-- The bytes after the first are as many as the table of the operations says. -/
theorem exists_wire_eq_cons (command : Command) :
    ∃ arguments, command.wire = command.opcode.byte :: arguments ∧
      (command.opcode.byte, arguments.length) ∈ Payload.argumentLengths := by
  refine ⟨_, command.wire_eq_writtenAll, Payload.mem_argumentLengths_iff.mpr ⟨_, rfl, ?_⟩⟩
  exact (Field.length_writtenAll command.acceptAll_arguments).symm

/-- What packs is packed to the documented bytes, and only a mint with too many decimals does not
pack. The payload is one byte longer than the table of the operations says of its arguments. -/
theorem packed_iff_wire (command : Command) :
    (∀ bytes, command.pack = .ok bytes ↔
      (∀ decimals, command = .token2022Mint decimals → decimals ≤ 18) ∧ bytes = command.wire) ∧
    ∃ first arguments, command.wire = first :: arguments ∧
      (first, arguments.length) ∈ Payload.argumentLengths := by
  refine ⟨fun bytes => ?_, ?_⟩
  · rw [pack_eq_ok_iff_wire, check_eq_ok_iff]
  · obtain ⟨arguments, hwire, hlength⟩ := command.exists_wire_eq_cons
    exact ⟨_, arguments, hwire, hlength⟩

/-- A label of 33 bytes loses the second byte of its last character. -/
theorem packed_iff_wire_cut :
    (initConfig true .active 258 "aaaaaaaaaaaaaaaaaaaaaaaaaaaaaaaé").pack =
      .ok ([12, 1, 1, 2, 1, 0, 0, 0, 0, 0, 0] ++ List.replicate 31 97 ++ [195]) :=
  ((packed_iff_wire _).1 _).mpr ⟨nofun, by decide⟩

end VaultWire.Command
