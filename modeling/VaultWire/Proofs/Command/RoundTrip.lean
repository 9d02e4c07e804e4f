import VaultWire.Proofs.Command.Arguments

/-!
# Packing and unpacking

A payload that is read names its operation in the first byte and holds the command's own record
after it. A packed command therefore comes back as it was, up to the cut and the trimming of its
label, and a payload that unpacks is the packed form of what it unpacks to.
-/

namespace VaultWire

namespace Opcode

theorem bytesDistinct_schema (opcode : Opcode) :
    ∀ field ∈ opcode.schema.fields, field.type.BytesDistinct := by
  cases opcode <;> simp [schema, FieldType.BytesDistinct, Status.tabulates.bytesDistinct,
    Selector.tabulates.bytesDistinct]

theorem symbolsDistinct_schema (opcode : Opcode) :
    ∀ field ∈ opcode.schema.fields, field.type.SymbolsDistinct := by
  cases opcode <;> simp [schema, FieldType.SymbolsDistinct, Status.tabulates.symbolsDistinct,
    Selector.tabulates.symbolsDistinct]

theorem byte_of_ofByte? {byte : UInt8} {opcode : Opcode} (h : ofByte? byte = some opcode) :
    opcode.byte = byte := by
  simpa using List.find?_some h

theorem byte_injective : Function.Injective byte := by
  intro a b h
  have hbyte := ofByte?_byte a
  rw [h, ofByte?_byte, Option.some.injEq] at hbyte
  exact hbyte.symm

end Opcode

namespace Command

variable {command : Command} {bytes : Bytes}

def label? : Command → Option String
  | initConfig _ _ _ label => some label
  | updateConfig update => some update.label
  | _ => none

/-- The command with another label, if it has one. -/
def withLabel (command : Command) (label : String) : Command :=
  match command with
  | initConfig isAuthorized status fee _ => initConfig isAuthorized status fee label
  | updateConfig update => updateConfig { update with label }
  | command => command

theorem check_token2022Mint {decimals : UInt8} (h : 18 < decimals) :
    (token2022Mint decimals).check =
      .error (.field "decimals" 0 (.decimalsOutOfRange decimals 18)) :=
  if_pos h

theorem check_eq_ok_iff :
    command.check = .ok () ↔ ∀ decimals, command = .token2022Mint decimals → decimals ≤ 18 := by
  cases command with
  | token2022Mint decimals =>
      by_cases h : 18 < decimals
      · refine iff_of_false ?_ fun hle => absurd (hle decimals rfl) (UInt8.not_le.mpr h)
        rw [check_token2022Mint h]
        exact nofun
      · refine iff_of_true (if_neg h) ?_
        rintro _ ⟨⟩
        exact UInt8.not_lt.mp h
  | _ => exact iff_of_true rfl nofun

theorem pack_eq_ok_iff :
    command.pack = .ok bytes ↔
      command.check = .ok () ∧ ∃ arguments, bytes = command.opcode.byte :: arguments ∧
        command.opcode.schema.encode command.arguments = .ok arguments := by
  rw [pack, bind_eq_ok_iff]
  constructor
  · rintro ⟨⟨⟩, hcheck, h⟩
    obtain ⟨arguments, harguments, hbytes⟩ := bind_eq_ok_iff.mp h
    have hpayload : payload command.opcode.byte [arguments] = bytes := Except.ok.inj hbytes
    rw [payload, List.flatten_singleton] at hpayload
    exact ⟨hcheck, arguments, hpayload.symm, harguments⟩
  · rintro ⟨hcheck, arguments, rfl, harguments⟩
    refine ⟨(), hcheck, bind_eq_ok_iff.mpr ⟨arguments, harguments, ?_⟩⟩
    rw [payload, List.flatten_singleton]
    rfl

/-- The layouts refuse no command: only the limit on decimals does. -/
theorem exists_pack_of_check (h : command.check = .ok ()) : ∃ bytes, command.pack = .ok bytes := by
  obtain ⟨arguments, harguments⟩ := Schema.exists_encode_of_acceptAll command.acceptAll_arguments
  exact ⟨_, pack_eq_ok_iff.mpr ⟨h, arguments, rfl, harguments⟩⟩

theorem exists_pack_error_iff :
    (∃ cause, command.pack = .error cause) ↔
      ∃ decimals, command = .token2022Mint decimals ∧ 18 < decimals := by
  constructor
  · rintro ⟨cause, hcause⟩
    have hcheck : ¬ command.check = .ok () := by
      intro hcheck
      obtain ⟨bytes, hbytes⟩ := exists_pack_of_check hcheck
      rw [hbytes] at hcause
      cases hcause
    simpa [check_eq_ok_iff] using hcheck
  · rintro ⟨decimals, rfl, hlt⟩
    exact ⟨_, congrArg (· >>= fun _ => _) (check_token2022Mint hlt)⟩

/-- A record read with the layout of an operation is the record of one of its commands. -/
theorem exists_record_of_decode {opcode : Opcode} {rest : Bytes} {record : Record}
    (h : opcode.schema.decode rest = .ok record) :
    ∃ command : Command, command.opcode = opcode ∧ command.record = record := by
  obtain ⟨values, hvalues, rfl⟩ := Schema.exists_values_of_decode h
  obtain ⟨command, rfl, rfl⟩ := exists_of_acceptAll hvalues
  exact ⟨command, rfl, rfl⟩

theorem unpack_cons (opcode : Opcode) (rest : Bytes) :
    unpack (opcode.byte :: rest) =
      (do
        let read ← ofRecord opcode (← opcode.schema.decode rest)
        read.check
        return read) := by
  rw [unpack]
  simp only [Opcode.ofByte?_byte]

theorem unpack_of_decode_eq_error {opcode : Opcode} {arguments : Bytes} {cause : CodecError}
    (h : opcode.schema.decode arguments = .error cause) :
    unpack (opcode.byte :: arguments) = .error cause := by
  rw [unpack_cons, h]
  rfl

/-- Once the record is read, only the limit on decimals can refuse it. -/
theorem unpack_of_decode {rest : Bytes}
    (h : command.opcode.schema.decode rest = .ok command.record) :
    unpack (command.opcode.byte :: rest) = command.check.map fun _ => command := by
  rw [unpack_cons, h]
  change (do
    let read ← ofRecord command.opcode command.record
    read.check
    return read) = _
  rw [ofRecord_record]
  change (do
    command.check
    return command) = _
  cases command.check <;> rfl

theorem unpack_eq_ok_iff :
    unpack bytes = .ok command ↔
      command.check = .ok () ∧ ∃ rest, bytes = command.opcode.byte :: rest ∧
        command.opcode.schema.decode rest = .ok command.record := by
  constructor
  · intro h
    cases bytes with
    | nil => cases h
    | cons first rest =>
        rw [unpack] at h
        cases hopcode : Opcode.ofByte? first with
        | none => rw [hopcode] at h; cases h
        | some opcode =>
            simp only [hopcode] at h
            obtain ⟨record, hrecord, h⟩ := bind_eq_ok_iff.mp h
            obtain ⟨read, rfl, rfl⟩ := exists_record_of_decode hrecord
            rw [ofRecord_record] at h
            obtain ⟨_, ⟨⟩, h⟩ := bind_eq_ok_iff.mp h
            obtain ⟨⟨⟩, hcheck, hread⟩ := bind_eq_ok_iff.mp h
            obtain rfl := Except.ok.inj hread
            exact ⟨hcheck, rest, by rw [Opcode.byte_of_ofByte? hopcode], hrecord⟩
  · rintro ⟨hcheck, rest, rfl, hrecord⟩
    rw [unpack_of_decode hrecord, hcheck]
    rfl

theorem pack_of_unpack (h : unpack bytes = .ok command) : command.pack = .ok bytes := by
  obtain ⟨hcheck, rest, rfl, hrecord⟩ := unpack_eq_ok_iff.mp h
  have hencode := Schema.encode_of_decode command.opcode.symbolsDistinct_schema hrecord
  rw [record, Schema.values_record command.acceptAll_arguments.length_eq.symm] at hencode
  exact pack_eq_ok_iff.mpr ⟨hcheck, rest, rfl, hencode⟩

/-- A payload that unpacks is the only one that unpacks to its command. -/
theorem canonical_of_unpack (h : unpack bytes = .ok command) :
    command.pack = .ok bytes ∧ ∀ other, unpack other = .ok command → other = bytes := by
  have hpack := pack_of_unpack h
  refine ⟨hpack, fun other hother => ?_⟩
  have hother' := pack_of_unpack hother
  rw [hpack] at hother'
  exact (Except.ok.inj hother').symm

theorem canonical_of_unpack_label :
    (initConfig true .active 5 "ab").pack =
      .ok ([12, 1, 1, 5, 0, 0, 0, 0, 0, 0, 0, 97, 98] ++ Bytes.zeros 30) := by
  have h : unpack ([12, 1, 1, 5, 0, 0, 0, 0, 0, 0, 0, 97, 98] ++ Bytes.zeros 30) =
      .ok (initConfig true .active 5 "ab") := by rfl
  exact (canonical_of_unpack h).1

theorem rereadAll_of_label?_eq_none (h : command.label? = none) :
    Field.rereadAll command.opcode.schema.fields command.arguments 0 =
      .ok command.record.entries := by
  cases command <;> first | rfl | cases h

/-- With a label, the layout rereads the label alone, and at the offset of the label. -/
theorem rereadAll_of_label?_eq_some {label : String} (h : command.label? = some label) :
    ∃ offset, command.opcode.schema.offsetOf? "label" = some offset ∧
      Field.rereadAll command.opcode.schema.fields command.arguments 0 =
        ((Text.decode (Text.encode label 32)).mapError (.field "label" offset)).map
          fun reread => (command.withLabel reread).record.entries := by
  cases command <;> cases h
  case initConfig isAuthorized status fee =>
    refine ⟨10, rfl, ?_⟩
    simp only [opcode, arguments, Opcode.schema, Field.rereadAll, FieldType.reread, Text.labelWidth]
    cases Text.decode (Text.encode label 32) <;> rfl
  case updateConfig update =>
    refine ⟨56, rfl, ?_⟩
    simp only [opcode, arguments, Opcode.schema, Quad.toList, List.map_cons, List.map_nil,
      List.cons_append, List.nil_append, Field.rereadAll, FieldType.reread, Text.labelWidth]
    cases Text.decode (Text.encode update.label 32) <;> rfl

/-- A packed command comes back as it was, up to what became of its label in the field. -/
theorem unpack_of_pack (h : command.pack = .ok bytes) :
    (command.label? = none → unpack bytes = .ok command) ∧
      ∀ label, command.label? = some label →
        ∃ offset, command.opcode.schema.offsetOf? "label" = some offset ∧
          unpack bytes = ((Text.decode (Text.encode label 32)).mapError (.field "label" offset)).map
            command.withLabel := by
  obtain ⟨hcheck, rest, rfl, hencode⟩ := pack_eq_ok_iff.mp h
  have hdecode := Schema.decode_of_encode command.opcode.bytesDistinct_schema hencode
  constructor
  · intro hnone
    rw [rereadAll_of_label?_eq_none hnone] at hdecode
    exact unpack_eq_ok_iff.mpr ⟨hcheck, rest, rfl, hdecode⟩
  · intro label hlabel
    obtain ⟨offset, hoffset, hreread⟩ := rereadAll_of_label?_eq_some hlabel
    refine ⟨offset, hoffset, ?_⟩
    rw [hreread] at hdecode
    cases hread : Text.decode (Text.encode label 32) with
    | error cause =>
        rw [hread] at hdecode
        rw [unpack_cons, hdecode]
        rfl
    | ok reread =>
        rw [hread] at hdecode
        have hopcode : (command.withLabel reread).opcode = command.opcode := by
          cases command <;> rfl
        have hcheck' : (command.withLabel reread).check = .ok () := by
          cases command <;> first | rfl | cases hlabel
        exact unpack_eq_ok_iff.mpr ⟨hcheck', rest, by rw [hopcode], by rw [hopcode]; exact hdecode⟩

theorem unpack_of_pack_of_label {label : String} (h : command.pack = .ok bytes)
    (hlabel : command.label? = some label) :
    (Text.WholeAt 32 label → ∃ front, Text.utf8 front = (Text.utf8 label).take 32 ∧
      unpack bytes = .ok (command.withLabel (Text.withoutNuls front))) ∧
    (¬ Text.WholeAt 32 label → ∃ offset, command.opcode.schema.offsetOf? "label" = some offset ∧
      unpack bytes = .error (.field "label" offset (.invalidText 32))) := by
  obtain ⟨offset, hoffset, hunpack⟩ := (unpack_of_pack h).2 label hlabel
  constructor
  · intro hwhole
    obtain ⟨front, hfront⟩ := Text.exists_front_iff.mpr hwhole
    rw [Text.decode_encode_of_front hfront] at hunpack
    exact ⟨front, hfront, hunpack⟩
  · intro hsplit
    rw [Text.decode_encode_of_not_wholeAt hsplit] at hunpack
    exact ⟨offset, hoffset, hunpack⟩

theorem withLabel_eq_self_iff {label other : String} (h : command.label? = some label) :
    command.withLabel other = command ↔ other = label := by
  cases command <;> cases h
  case initConfig isAuthorized status fee => simp [withLabel]
  case updateConfig update =>
    rw [withLabel, updateConfig.injEq]
    constructor
    · intro hupdate
      exact congrArg ConfigUpdate.label hupdate
    · rintro rfl
      rfl

theorem unpack_of_pack_eq_self_iff (h : command.pack = .ok bytes) :
    unpack bytes = .ok command ↔ ∀ label, command.label? = some label → Text.Fits 32 label := by
  obtain ⟨hnone, hsome⟩ := unpack_of_pack h
  cases hlabel : command.label? with
  | none => simp [hnone hlabel]
  | some label =>
      obtain ⟨offset, -, hunpack⟩ := hsome label hlabel
      rw [hunpack, map_eq_ok_iff]
      simp only [mapError_eq_ok_iff, withLabel_eq_self_iff hlabel, exists_eq_right,
        Option.some.injEq, forall_eq']
      exact Text.decode_encode_eq_self_iff

/-- Which commands pack, and what their payloads unpack to. -/
theorem unpack_pack (command : Command) :
    ((∃ cause, command.pack = .error cause) ↔
      ∃ decimals, command = .token2022Mint decimals ∧ 18 < decimals) ∧
    (∀ bytes, command.pack = .ok bytes →
      (command.label? = none → unpack bytes = .ok command) ∧
      ∀ label, command.label? = some label →
        (Text.WholeAt 32 label → ∃ front, Text.utf8 front = (Text.utf8 label).take 32 ∧
          unpack bytes = .ok (command.withLabel (Text.withoutNuls front))) ∧
        (¬ Text.WholeAt 32 label → ∃ offset, command.opcode.schema.offsetOf? "label" = some offset ∧
          unpack bytes = .error (.field "label" offset (.invalidText 32)))) ∧
    ((command.pack >>= unpack) = .ok command ↔
      (∃ bytes, command.pack = .ok bytes) ∧
        ∀ label, command.label? = some label → Text.Fits 32 label) := by
  refine ⟨exists_pack_error_iff, ?_, ?_⟩
  · intro bytes h
    exact ⟨(unpack_of_pack h).1, fun label hlabel => unpack_of_pack_of_label h hlabel⟩
  · rw [bind_eq_ok_iff]
    constructor
    · rintro ⟨bytes, hpack, hunpack⟩
      exact ⟨⟨bytes, hpack⟩, (unpack_of_pack_eq_self_iff hpack).mp hunpack⟩
    · rintro ⟨⟨bytes, hpack⟩, hfits⟩
      exact ⟨bytes, hpack, (unpack_of_pack_eq_self_iff hpack).mpr hfits⟩

/-- The U+0000 at the end of a label is lost. -/
theorem unpack_pack_nul :
    ∃ bytes, (initConfig true .active 5 "ab\x00").pack = .ok bytes ∧
      unpack bytes = .ok (initConfig true .active 5 "ab") := by
  obtain ⟨bytes, hpack⟩ : ∃ bytes, (initConfig true .active 5 "ab\x00").pack = .ok bytes :=
    exists_pack_of_check rfl
  obtain ⟨front, hfront, hunpack⟩ :=
    (((unpack_pack _).2.1 bytes hpack).2 "ab\x00" rfl).1 (.inl (by decide))
  have hshort : (Text.utf8 "ab\x00").take 32 = Text.utf8 "ab\x00" := by decide
  obtain rfl := Text.utf8_injective (hfront.trans hshort)
  exact ⟨bytes, hpack, hunpack⟩

end Command

end VaultWire
