import Mathlib.Logic.Relation
import VaultWire.Proofs.Account.RoundTrip
import VaultWire.Proofs.Word

/-!
# Accounts and first entries

A record may list a name more than once and may list names that no layout has. The account that is
told from it, or the refusal, depends on nothing but the first entry of each name of the layout. An
account is told if each of these entries is there and has a value that its field accepts.
-/

namespace VaultWire

namespace Record

/-- Whether the first entry of this name has this value. -/
def FirstEntry (record : Record) (name : String) (value : FieldValue) : Prop :=
  ∃ before after, record.entries = before ++ (name, value) :: after ∧
    ∀ entry ∈ before, entry.1 ≠ name

/-- Whether the first entries of the fields' names have these values. -/
def Lists (record : Record) (fields : List Field) (values : List FieldValue) : Prop :=
  List.Forall₂ (fun field value => record.FirstEntry field.name value) fields values

/-- Whether two records have the same first entries of these names. -/
def AgreeOn (names : List String) (record other : Record) : Prop :=
  ∀ name ∈ names, ∀ value, record.FirstEntry name value ↔ other.FirstEntry name value

/-- One change of a record that leaves the first entries of these names as they are. -/
inductive Change (names : List String) : Record → Record → Prop
  /-- An entry of another name comes in, anywhere. -/
  | other {before after : List (String × FieldValue)} {name : String} (value : FieldValue) :
      name ∉ names → Change names ⟨before ++ after⟩ ⟨before ++ (name, value) :: after⟩
  /-- An entry comes in, anywhere behind one of the same name. -/
  | later {before after : List (String × FieldValue)} {name : String} (value : FieldValue) :
      name ∈ before.map (·.1) →
      Change names ⟨before ++ after⟩ ⟨before ++ (name, value) :: after⟩
  | reorder {record other : Record} : record.entries.Perm other.entries →
      AgreeOn names record other → Change names record other

variable {record other : Record} {names : List String} {name key : String} {value : FieldValue}
  {before after : List (String × FieldValue)}

theorem get?_eq_some_iff : record.get? name = some value ↔ record.FirstEntry name value := by
  rw [get?, List.lookup_eq_some_iff, FirstEntry]
  simp only [bne_iff_ne, ne_comm]

theorem agreeOn_iff :
    AgreeOn names record other ↔ ∀ name ∈ names, record.get? name = other.get? name := by
  refine forall₂_congr fun name _ => ?_
  rw [Option.ext_iff]
  exact forall_congr' fun value => iff_congr get?_eq_some_iff.symm get?_eq_some_iff.symm

theorem get?_append :
    get? ⟨before ++ after⟩ key = (get? ⟨before⟩ key).or (get? ⟨after⟩ key) :=
  List.lookup_append

theorem get?_insert_of_ne (h : key ≠ name) :
    get? ⟨before ++ (name, value) :: after⟩ key = get? ⟨before ++ after⟩ key := by
  rw [get?_append, get?_append, get?_cons, if_neg h]

theorem get?_insert_of_mem (h : name ∈ before.map (·.1)) :
    get? ⟨before ++ (name, value) :: after⟩ name = get? ⟨before ++ after⟩ name := by
  obtain ⟨entry, hentry, rfl⟩ := List.mem_map.mp h
  have hfound : (get? ⟨before⟩ entry.1).isSome :=
    List.lookup_isSome_iff.mpr ⟨entry, hentry, beq_self_eq_true _⟩
  obtain ⟨first, hfirst⟩ := Option.isSome_iff_exists.mp hfound
  rw [get?_append, get?_append, hfirst, Option.some_or, Option.some_or]

theorem Change.agreeOn (h : Change names record other) : AgreeOn names record other := by
  rw [agreeOn_iff]
  intro key hkey
  cases h with
  | @other before after name value hother =>
      have hne : key ≠ name := fun hname => hother (hname ▸ hkey)
      exact (get?_insert_of_ne hne).symm
  | @later before after name value hlater =>
      by_cases hname : key = name
      · subst hname
        exact (get?_insert_of_mem hlater).symm
      · exact (get?_insert_of_ne hname).symm
  | reorder _ hagree => exact agreeOn_iff.mp hagree key hkey

theorem agreeOn_of_changes (h : Relation.ReflTransGen (Change names) record other) :
    AgreeOn names record other := by
  induction h with
  | refl => exact fun _ _ _ => Iff.rfl
  | tail _ hchange ih =>
      exact fun name hname value => (ih name hname value).trans (hchange.agreeOn name hname value)

theorem get_eq_ok_iff : record.get name = .ok value ↔ record.FirstEntry name value := by
  rw [← get?_eq_some_iff, get]
  cases record.get? name with
  | none => simp
  | some found => simp

theorem AgreeOn.get_eq (h : AgreeOn names record other) :
    ∀ name ∈ names, record.get name = other.get name := by
  intro name hname
  rw [get, get, agreeOn_iff.mp h name hname]

/-- A look-up by kind finds the first entry or refuses it. -/
theorem get_bind_eq_ok_iff {α : Type} {read : FieldValue → Except CodecError α}
    {wrap : α → FieldValue} {a : α} (hread : ∀ value, read value = .ok a ↔ value = wrap a) :
    (record.get name >>= read) = .ok a ↔ record.FirstEntry name (wrap a) := by
  simp only [bind_eq_ok_iff, get_eq_ok_iff, hread, exists_eq_right]

theorem uint_eq_ok_iff {n : Nat} :
    record.uint name = .ok n ↔ record.FirstEntry name (.uint n) :=
  get_bind_eq_ok_iff fun value => by cases value <;> simp

theorem word_eq_ok_iff {α : Type} [Word α] {w : α} :
    record.word name = .ok w ↔ record.FirstEntry name (.word w) := by
  rw [word, bind_eq_ok_iff]
  simp only [uint_eq_ok_iff, Word.narrow_eq_ok_iff, exists_eq_right']
  rfl

theorem bool_eq_ok_iff {flag : Bool} :
    record.bool name = .ok flag ↔ record.FirstEntry name (.bool flag) :=
  get_bind_eq_ok_iff fun value => by cases value <;> simp

theorem symbol_eq_ok_iff {symbol : String} :
    record.symbol name = .ok symbol ↔ record.FirstEntry name (.enum symbol) :=
  get_bind_eq_ok_iff fun value => by cases value <;> simp

theorem address_eq_ok_iff {address : Address} :
    record.address name = .ok address ↔ record.FirstEntry name (.address address) :=
  get_bind_eq_ok_iff fun value => by cases value <;> simp

theorem text_eq_ok_iff {content : String} :
    record.text name = .ok content ↔ record.FirstEntry name (.text content) :=
  get_bind_eq_ok_iff fun value => by cases value <;> simp

end Record

def Schema.names (schema : Schema) : List String := schema.fields.map (·.name)

namespace Config

theorem ofRecord_congr {record other : Record}
    (h : Record.AgreeOn schema.names record other) : ofRecord record = ofRecord other := by
  have hget := h.get_eq
  simp only [Schema.names, schema, List.map_cons, List.map_nil, List.forall_mem_cons] at hget
  simp only [ofRecord, Quad.traverse, mintNames, Record.address, Record.text, Record.word,
    Record.uint, Record.bool, Record.symbol, hget]

theorem ofRecord_eq_ok_iff_lists {record : Record} {config : Config} :
    ofRecord record = .ok config ↔ record.Lists schema.fields config.values := by
  rw [ofRecord_eq_ok_iff]
  simp only [Record.Lists, schema, values, Quad.toList, List.map_cons, List.map_nil,
    List.cons_append, List.nil_append, List.forall₂_cons, List.Forall₂.nil, and_true,
    ← Record.address_eq_ok_iff, ← Record.text_eq_ok_iff, ← Record.word_eq_ok_iff,
    ← Record.bool_eq_ok_iff, ← Record.symbol_eq_ok_iff]
  constructor
  · intro h
    have hmints := h.mints
    simp only [mintNames, Quad.toList, List.map_cons, List.map_nil, List.cons.injEq, and_true]
      at hmints
    obtain ⟨hmint0, hmint1, hmint2, hmint3⟩ := hmints
    exact ⟨hmint0, hmint1, hmint2, hmint3, h.authority, h.owner, h.admin, h.label, h.fee,
      h.solBalance, h.tokenBalance, h.updatedAt, h.isAuthorized, h.status, h.bump⟩
  · rintro ⟨hmint0, hmint1, hmint2, hmint3, hauthority, howner, hadmin, hlabel, hfee, hsol, htoken,
      hupdated, hauthorized, hstatus, hbump⟩
    refine ⟨?_, hauthority, howner, hadmin, hlabel, hfee, hsol, htoken, hupdated, hauthorized,
      hstatus, hbump⟩
    simp only [mintNames, Quad.toList, List.map_cons, List.map_nil, hmint0, hmint1, hmint2, hmint3]

end Config

namespace Escrow

theorem ofRecord_congr {record other : Record}
    (h : Record.AgreeOn schema.names record other) : ofRecord record = ofRecord other := by
  have hget := h.get_eq
  simp only [Schema.names, schema, List.map_cons, List.map_nil, List.forall_mem_cons] at hget
  simp only [ofRecord, Record.address, Record.word, Record.uint, hget]

theorem ofRecord_eq_ok_iff_lists {record : Record} {escrow : Escrow} :
    ofRecord record = .ok escrow ↔ record.Lists schema.fields escrow.values := by
  rw [ofRecord_eq_ok_iff]
  simp only [Record.Lists, schema, values, List.forall₂_cons, List.Forall₂.nil, and_true,
    ← Record.address_eq_ok_iff, ← Record.word_eq_ok_iff]
  constructor
  · intro h
    exact ⟨h.maker, h.mintMaker, h.mintTaker, h.amount, h.bump⟩
  · rintro ⟨hmaker, hmintMaker, hmintTaker, hamount, hbump⟩
    exact ⟨hmaker, hmintMaker, hmintTaker, hamount, hbump⟩

end Escrow

theorem exists_forall₂_iff {α β : Type} {R : α → β → Prop} {l : List α} :
    (∃ m, List.Forall₂ R l m) ↔ ∀ a ∈ l, ∃ b, R a b := by
  induction l with
  | nil => simp
  | cons a l ih =>
      rw [List.forall_mem_cons, ← ih]
      constructor
      · rintro ⟨_, hab | ⟨hab, hrest⟩⟩
        exact ⟨⟨_, hab⟩, ⟨_, hrest⟩⟩
      · rintro ⟨⟨b, hab⟩, ⟨m, hrest⟩⟩
        exact ⟨b :: m, .cons hab hrest⟩

namespace Packed

variable {α : Type} [Packed α]

/-- What it is for accounts of a type to be told from records by the first entries of the names of
their layout, and by nothing else. -/
structure ToldByFirstEntries (α : Type) [Packed α] : Prop where
  /-- Records with the same first entries tell of the same account or are refused for the same
  cause. -/
  congr : ∀ record other : Record, Record.AgreeOn (schema α).names record other →
    (ofRecord record : Except CodecError α) = ofRecord other
  changes : ∀ record other : Record,
    Relation.ReflTransGen (Record.Change (schema α).names) record other →
      (ofRecord record : Except CodecError α) = ofRecord other
  /-- An account is told exactly if each field accepts the first entry of its name. -/
  exists_iff : ∀ record : Record, (∃ account : α, ofRecord record = .ok account) ↔
    ∀ field ∈ (schema α).fields, ∃ value,
      record.FirstEntry field.name value ∧ field.type.Accepts value
  ok_iff : ∀ (record : Record) (account : α), ofRecord record = .ok account ↔
    record.Lists (schema α).fields (values account)
  ofRecord_record : ∀ account : α,
    ofRecord ((schema α).record (values account)) = .ok account

theorem exists_ofRecord_iff [LawfulPacked α]
    (hok : ∀ (record : Record) (account : α), ofRecord record = .ok account ↔
      record.Lists (schema α).fields (values account)) (record : Record) :
    (∃ account : α, ofRecord record = .ok account) ↔
      ∀ field ∈ (schema α).fields, ∃ value,
        record.FirstEntry field.name value ∧ field.type.Accepts value := by
  rw [← exists_forall₂_iff]
  constructor
  · rintro ⟨account, h⟩
    have haccepts : Field.AcceptAll (schema α).fields (values account) :=
      LawfulPacked.acceptAll_values account
    exact ⟨values account,
      List.Forall₂.mp (fun _ _ hfirst haccept => ⟨hfirst, haccept⟩) ((hok _ _).mp h) haccepts⟩
  · rintro ⟨vals, h⟩
    obtain ⟨account, rfl⟩ :=
      LawfulPacked.exists_of_acceptAll (α := α) vals (h.imp fun _ _ hboth => hboth.2)
    exact ⟨account, (hok _ _).mpr (h.imp fun _ _ hboth => hboth.1)⟩

theorem toldByFirstEntries [LawfulPacked α]
    (hcongr : ∀ record other : Record, Record.AgreeOn (schema α).names record other →
      (ofRecord record : Except CodecError α) = ofRecord other)
    (hok : ∀ (record : Record) (account : α), ofRecord record = .ok account ↔
      record.Lists (schema α).fields (values account)) : ToldByFirstEntries α where
  congr := hcongr
  changes record other h := hcongr record other (Record.agreeOn_of_changes h)
  exists_iff := exists_ofRecord_iff hok
  ok_iff := hok
  ofRecord_record := LawfulPacked.ofRecord_record

/-- Configs and escrows are told from records by the first entries of the names of their layouts:
entries of other names, later entries and the order make no difference to an account or a refusal,
and what every field has to find is a value that it accepts. An account's own values tell of it,
whether or not its label fits. -/
theorem told_by_first_entries : ToldByFirstEntries Config ∧ ToldByFirstEntries Escrow := by
  constructor
  · exact toldByFirstEntries (fun _ _ => Config.ofRecord_congr)
      fun _ _ => Config.ofRecord_eq_ok_iff_lists
  · exact toldByFirstEntries (fun _ _ => Escrow.ofRecord_congr)
      fun _ _ => Escrow.ofRecord_eq_ok_iff_lists

/-- The values of an escrow with a note in front of them and a second bump, of another kind, behind
them tell of the escrow. With a bump in front of them that is too large they tell of none. A config is
told with a label that its field would cut. -/
theorem told_by_first_entries_repeated :
    ofRecord ⟨("note", .text "x") :: (Escrow.schema.record (values (default : Escrow))).entries ++
        [("bump", .bool true)]⟩ = .ok (default : Escrow) ∧
      (¬ ∃ escrow : Escrow, ofRecord
        ⟨("bump", .uint 256) :: (Escrow.schema.record (values (default : Escrow))).entries⟩ =
          .ok escrow) ∧
      ofRecord (Config.schema.record
          (values { (default : Config) with label := "a label of 33 bytes in its placé" })) =
        .ok { (default : Config) with label := "a label of 33 bytes in its placé" } := by
  obtain ⟨hconfig, hescrow⟩ := told_by_first_entries
  refine ⟨?_, ?_, hconfig.ofRecord_record _⟩
  · have hnote := @Record.Change.other Escrow.schema.names []
      (Escrow.schema.record (values (default : Escrow))).entries "note" (.text "x") (by decide)
    have hbump := @Record.Change.later Escrow.schema.names
      (("note", .text "x") :: (Escrow.schema.record (values (default : Escrow))).entries) [] "bump"
      (.bool true) (by decide)
    rw [List.append_nil] at hbump
    rw [← hescrow.changes _ _ (.tail (.single hnote) hbump)]
    exact hescrow.ofRecord_record default
  · intro htold
    obtain ⟨value, hfirst, haccepts⟩ :=
      (hescrow.exists_iff _).mp htold ⟨"bump", .uint 1⟩ (by decide)
    cases Record.get?_eq_some_iff.mpr hfirst
    exact Nat.lt_irrefl 256 haccepts

end Packed

end VaultWire
