import Mathlib.Data.List.Nodup
import Mathlib.Logic.Equiv.Defs
import VaultWire.Account.Status
import VaultWire.Command.Selector
import VaultWire.Proofs.Except

/-!
# Tables both ways

A look-up takes the first entry that matches, by its symbol for writing and by its byte for reading,
and is refused only if no entry does. Where no byte repeats, the byte written for a symbol is read as
this symbol; where no symbol repeats, the symbol read from a byte is written as this byte. Where
neither repeats, the two look-ups pair the symbols of the table with its bytes. The tables of the
statuses and of the selectors are of this kind.
-/

namespace VaultWire

section Keys

variable {α β κ ε : Type} [BEq κ] [LawfulBEq κ] {key : α → κ} {value : α → β} {l : List α} {a : α}
  {k : κ} {b : β} {cause failure : ε}

theorem find?_eq_some_of_nodup (h : (l.map key).Nodup) (ha : a ∈ l) :
    l.find? (key · == key a) = some a := by
  induction l with
  | nil => cases ha
  | cons b l ih =>
      rw [List.map_cons, List.nodup_cons] at h
      rcases List.mem_cons.mp ha with rfl | hmem
      · exact List.find?_cons_of_pos (by simp)
      · have hne : key b ≠ key a := fun hkey => h.1 (hkey ▸ List.mem_map_of_mem hmem)
        rw [List.find?_cons_of_neg (by simpa using hne)]
        exact ih h.2 hmem

theorem elim_find?_eq_ok_iff :
    (l.find? (key · == k)).elim (.error cause : Except ε β) (fun entry => .ok (value entry)) =
        .ok b ↔
      ∃ entry, (key entry = k ∧ value entry = b) ∧
        ∃ before after, l = before ++ entry :: after ∧ ∀ other ∈ before, key other ≠ k := by
  have hfirst (entry : α) : l.find? (key · == k) = some entry ↔ key entry = k ∧
      ∃ before after, l = before ++ entry :: after ∧ ∀ other ∈ before, key other ≠ k := by
    rw [List.find?_eq_some_iff_append]
    simp
  have hvalue : (l.find? (key · == k)).elim (.error cause : Except ε β)
      (fun entry => .ok (value entry)) = .ok b ↔
        ∃ entry, l.find? (key · == k) = some entry ∧ value entry = b := by
    cases l.find? (key · == k) <;> simp
  simp only [hvalue, hfirst, and_right_comm]

theorem elim_find?_eq_error_iff :
    (l.find? (key · == k)).elim (.error cause : Except ε β) (fun entry => .ok (value entry)) =
        .error failure ↔
      k ∉ l.map key ∧ failure = cause := by
  have hnone : l.find? (key · == k) = none ↔ k ∉ l.map key := by
    simp only [List.find?_eq_none, List.mem_map, beq_iff_eq, not_exists, not_and]
  rw [← hnone]
  cases l.find? (key · == k) with
  | none => simp [eq_comm]
  | some entry => simp

end Keys

namespace EnumTable

variable {table : EnumTable} {byte : UInt8} {symbol found : String} {cause : CodecError}

def BytesDistinct (table : EnumTable) : Prop := (table.entries.map (·.1)).Nodup

def SymbolsDistinct (table : EnumTable) : Prop := (table.entries.map (·.2)).Nodup

instance (table : EnumTable) : Decidable table.BytesDistinct := List.nodupDecidable _

instance (table : EnumTable) : Decidable table.SymbolsDistinct := List.nodupDecidable _

theorem encode_eq_elim (table : EnumTable) (symbol : String) :
    table.encode symbol = (table.entries.find? (·.2 == symbol)).elim
      (.error (.unknownSymbol table.name symbol)) fun entry => .ok entry.1 := by
  rw [encode]
  cases table.entries.find? (·.2 == symbol) <;> rfl

theorem decode_eq_elim (table : EnumTable) (byte : UInt8) :
    table.decode byte = (table.entries.find? (·.1 == byte)).elim
      (.error (.invalidEnum table.name byte)) fun entry => .ok entry.2 := by
  rw [decode]
  cases table.entries.find? (·.1 == byte) <;> rfl

theorem encode_eq_ok_iff :
    table.encode symbol = .ok byte ↔
      ∃ before after, table.entries = before ++ (byte, symbol) :: after ∧
        ∀ entry ∈ before, entry.2 ≠ symbol := by
  rw [encode_eq_elim, elim_find?_eq_ok_iff]
  constructor
  · rintro ⟨_, ⟨rfl, rfl⟩, hfirst⟩
    exact hfirst
  · intro hfirst
    exact ⟨(byte, symbol), ⟨rfl, rfl⟩, hfirst⟩

theorem decode_eq_ok_iff :
    table.decode byte = .ok symbol ↔
      ∃ before after, table.entries = before ++ (byte, symbol) :: after ∧
        ∀ entry ∈ before, entry.1 ≠ byte := by
  rw [decode_eq_elim, elim_find?_eq_ok_iff]
  constructor
  · rintro ⟨_, ⟨rfl, rfl⟩, hfirst⟩
    exact hfirst
  · intro hfirst
    exact ⟨(byte, symbol), ⟨rfl, rfl⟩, hfirst⟩

theorem encode_eq_error_iff :
    table.encode symbol = .error cause ↔
      symbol ∉ table.entries.map (·.2) ∧ cause = .unknownSymbol table.name symbol := by
  rw [encode_eq_elim, elim_find?_eq_error_iff]

theorem decode_eq_error_iff :
    table.decode byte = .error cause ↔
      byte ∉ table.entries.map (·.1) ∧ cause = .invalidEnum table.name byte := by
  rw [decode_eq_elim, elim_find?_eq_error_iff]

theorem mem_of_encode (h : table.encode symbol = .ok byte) : (byte, symbol) ∈ table.entries := by
  obtain ⟨before, after, hentries, -⟩ := encode_eq_ok_iff.mp h
  rw [hentries]
  exact List.mem_append_right before List.mem_cons_self

theorem mem_of_decode (h : table.decode byte = .ok symbol) : (byte, symbol) ∈ table.entries := by
  obtain ⟨before, after, hentries, -⟩ := decode_eq_ok_iff.mp h
  rw [hentries]
  exact List.mem_append_right before List.mem_cons_self

theorem encode_of_mem (hdistinct : table.SymbolsDistinct) (h : (byte, symbol) ∈ table.entries) :
    table.encode symbol = .ok byte := by
  have hfind := find?_eq_some_of_nodup hdistinct h
  dsimp only at hfind
  rw [encode, hfind]

theorem decode_of_mem (hdistinct : table.BytesDistinct) (h : (byte, symbol) ∈ table.entries) :
    table.decode byte = .ok symbol := by
  have hfind := find?_eq_some_of_nodup hdistinct h
  dsimp only at hfind
  rw [decode, hfind]

theorem exists_encode_of_mem (h : symbol ∈ table.entries.map (·.2)) :
    ∃ byte, table.encode symbol = .ok byte := by
  cases hencode : table.encode symbol with
  | error cause => exact absurd h (encode_eq_error_iff.mp hencode).1
  | ok byte => exact ⟨byte, rfl⟩

theorem exists_decode_of_mem (h : byte ∈ table.entries.map (·.1)) :
    ∃ symbol, table.decode byte = .ok symbol := by
  cases hdecode : table.decode byte with
  | error cause => exact absurd h (decode_eq_error_iff.mp hdecode).1
  | ok symbol => exact ⟨symbol, rfl⟩

theorem decode_of_encode (hdistinct : table.BytesDistinct) (h : table.encode symbol = .ok byte) :
    table.decode byte = .ok symbol :=
  decode_of_mem hdistinct (mem_of_encode h)

theorem encode_of_decode (hdistinct : table.SymbolsDistinct) (h : table.decode byte = .ok symbol) :
    table.encode symbol = .ok byte :=
  encode_of_mem hdistinct (mem_of_decode h)

/-- A byte that was written can be read, also where bytes repeat, so only a symbol that is not in the
table is refused. -/
theorem symbol_eq_error_iff :
    table.symbol symbol = .error cause ↔
      symbol ∉ table.entries.map (·.2) ∧ cause = .unknownSymbol table.name symbol := by
  rw [← encode_eq_error_iff, EnumTable.symbol]
  cases hencode : table.encode symbol with
  | error failure =>
      change (.error failure : Except CodecError String) = .error cause ↔ _
      rw [Except.error.injEq, Except.error.injEq]
  | ok byte =>
      obtain ⟨found, hfound⟩ := exists_decode_of_mem (List.mem_map_of_mem (mem_of_encode hencode))
      change table.decode byte = .error cause ↔ _
      rw [hfound]
      exact iff_of_false nofun nofun

theorem symbol_eq_ok_iff (hdistinct : table.BytesDistinct) :
    table.symbol symbol = .ok found ↔ symbol ∈ table.entries.map (·.2) ∧ found = symbol := by
  rw [EnumTable.symbol, bind_eq_ok_iff]
  constructor
  · rintro ⟨byte, hencode, hdecode⟩
    rw [decode_of_encode hdistinct hencode] at hdecode
    exact ⟨List.mem_map_of_mem (mem_of_encode hencode), (Except.ok.inj hdecode).symm⟩
  · rintro ⟨hmem, rfl⟩
    obtain ⟨byte, hencode⟩ := exists_encode_of_mem hmem
    exact ⟨byte, hencode, decode_of_encode hdistinct hencode⟩

/-- What it means that a table lists the members of a type, each with a byte and a symbol of its
own. -/
structure Tabulates {α : Type} (table : EnumTable) (members : List α) (byte : α → UInt8)
    (symbol : α → String) : Prop where
  entries : table.entries = members.map fun a => (byte a, symbol a)
  complete : ∀ a, a ∈ members
  bytesDistinct : table.BytesDistinct
  symbolsDistinct : table.SymbolsDistinct

namespace Tabulates

variable {α : Type} {members : List α} {toByte : α → UInt8} {toSymbol : α → String}

theorem mem_iff (h : table.Tabulates members toByte toSymbol) :
    (byte, symbol) ∈ table.entries ↔ ∃ a, byte = toByte a ∧ symbol = toSymbol a := by
  rw [h.entries, List.mem_map]
  constructor
  · rintro ⟨a, -, hentry⟩
    cases hentry
    exact ⟨a, rfl, rfl⟩
  · rintro ⟨a, rfl, rfl⟩
    exact ⟨a, h.complete a, rfl⟩

theorem symbol_mem_iff (h : table.Tabulates members toByte toSymbol) :
    symbol ∈ table.entries.map (·.2) ↔ ∃ a, symbol = toSymbol a := by
  constructor
  · intro hmem
    obtain ⟨entry, hentry, rfl⟩ := List.mem_map.mp hmem
    obtain ⟨a, -, hsymbol⟩ := h.mem_iff.mp hentry
    exact ⟨a, hsymbol⟩
  · rintro ⟨a, rfl⟩
    exact List.mem_map_of_mem (h.mem_iff.mpr ⟨a, rfl, rfl⟩)

theorem decode_eq_ok_iff (h : table.Tabulates members toByte toSymbol) {a : α} :
    table.decode byte = .ok (toSymbol a) ↔ toByte a = byte := by
  have hmem : (toByte a, toSymbol a) ∈ table.entries := h.mem_iff.mpr ⟨a, rfl, rfl⟩
  constructor
  · intro hdecode
    have hback := encode_of_decode h.symbolsDistinct hdecode
    rw [encode_of_mem h.symbolsDistinct hmem] at hback
    exact Except.ok.inj hback
  · rintro rfl
    exact decode_of_mem h.bytesDistinct hmem

end Tabulates

/-- A symbol that the table lists. -/
abbrev Symbol (table : EnumTable) : Type := {symbol // symbol ∈ table.entries.map (·.2)}

/-- A byte that the table lists. -/
abbrev Byte (table : EnumTable) : Type := {byte // byte ∈ table.entries.map (·.1)}

/-- What it means that writing and reading are the two directions of one pairing. -/
structure Pairs (table : EnumTable) (pairing : table.Symbol ≃ table.Byte) : Prop where
  encode : ∀ symbol : table.Symbol, table.encode symbol.1 = .ok (pairing symbol).1
  decode : ∀ byte : table.Byte, table.decode byte.1 = .ok (pairing.symm byte).1

theorem exists_byte_of_symbol (symbol : table.Symbol) :
    ∃ byte : table.Byte, table.encode symbol.1 = .ok byte.1 := by
  obtain ⟨byte, hencode⟩ := exists_encode_of_mem symbol.2
  exact ⟨⟨byte, List.mem_map_of_mem (mem_of_encode hencode)⟩, hencode⟩

theorem exists_symbol_of_byte (byte : table.Byte) :
    ∃ symbol : table.Symbol, table.decode byte.1 = .ok symbol.1 := by
  obtain ⟨symbol, hdecode⟩ := exists_decode_of_mem byte.2
  exact ⟨⟨symbol, List.mem_map_of_mem (mem_of_decode hdecode)⟩, hdecode⟩

theorem exists_pairing (hbytes : table.BytesDistinct) (hsymbols : table.SymbolsDistinct) :
    ∃ pairing, table.Pairs pairing := by
  choose write hwrite using fun symbol : table.Symbol => exists_byte_of_symbol symbol
  choose read hread using fun byte : table.Byte => exists_symbol_of_byte byte
  refine ⟨⟨write, read, ?_, ?_⟩, hwrite, hread⟩
  · intro symbol
    have hback := decode_of_encode hbytes (hwrite symbol)
    rw [hread] at hback
    exact Subtype.ext (Except.ok.inj hback)
  · intro byte
    have hback := encode_of_decode hsymbols (hread byte)
    rw [hwrite] at hback
    exact Subtype.ext (Except.ok.inj hback)

/-- In every table, writing a symbol and reading a byte find the first entry with this symbol or this
byte, and are refused exactly if there is none. Where no byte repeats, each symbol of the table is
read back as itself, and no other symbol comes back. Where no symbol repeats, each byte of the table
is written back as itself. Where neither repeats, the two look-ups are inverse pairings of the symbols
with the bytes. -/
theorem lookups_inverse (table : EnumTable) :
    (∀ symbol,
      (∀ byte, table.encode symbol = .ok byte ↔
        ∃ before after, table.entries = before ++ (byte, symbol) :: after ∧
          ∀ entry ∈ before, entry.2 ≠ symbol) ∧
      (∀ cause, table.encode symbol = .error cause ↔
        symbol ∉ table.entries.map (·.2) ∧ cause = .unknownSymbol table.name symbol) ∧
      ∀ cause, table.symbol symbol = .error cause ↔
        symbol ∉ table.entries.map (·.2) ∧ cause = .unknownSymbol table.name symbol) ∧
    (∀ byte,
      (∀ symbol, table.decode byte = .ok symbol ↔
        ∃ before after, table.entries = before ++ (byte, symbol) :: after ∧
          ∀ entry ∈ before, entry.1 ≠ byte) ∧
      ∀ cause, table.decode byte = .error cause ↔
        byte ∉ table.entries.map (·.1) ∧ cause = .invalidEnum table.name byte) ∧
    (table.BytesDistinct →
      (∀ symbol ∈ table.entries.map (·.2), ∃ byte,
        table.encode symbol = .ok byte ∧ table.decode byte = .ok symbol) ∧
      ∀ symbol found, table.symbol symbol = .ok found ↔
        symbol ∈ table.entries.map (·.2) ∧ found = symbol) ∧
    (table.SymbolsDistinct → ∀ byte ∈ table.entries.map (·.1), ∃ symbol,
      table.decode byte = .ok symbol ∧ table.encode symbol = .ok byte) ∧
    (table.BytesDistinct → table.SymbolsDistinct → ∃ pairing, table.Pairs pairing) := by
  refine ⟨?_, ?_, ?_, ?_, exists_pairing⟩
  · intro symbol
    exact ⟨fun byte => encode_eq_ok_iff, fun cause => encode_eq_error_iff,
      fun cause => symbol_eq_error_iff⟩
  · intro byte
    exact ⟨fun symbol => decode_eq_ok_iff, fun cause => decode_eq_error_iff⟩
  · intro hbytes
    refine ⟨?_, fun symbol found => symbol_eq_ok_iff hbytes⟩
    intro symbol hmem
    obtain ⟨byte, hencode⟩ := exists_encode_of_mem hmem
    exact ⟨byte, hencode, decode_of_encode hbytes hencode⟩
  · intro hsymbols byte hmem
    obtain ⟨symbol, hdecode⟩ := exists_decode_of_mem hmem
    exact ⟨symbol, hdecode, encode_of_decode hsymbols hdecode⟩

/-- A table that writes one symbol for two bytes. -/
def doubled : EnumTable := ⟨"level", [(0, "low"), (1, "high"), (2, "high")]⟩

/-- The statuses and their bytes are paired. In the other table the doubled symbol is read back, but
its second byte is not written back. -/
theorem lookups_inverse_doubled :
    (Status.table.BytesDistinct ∧ Status.table.SymbolsDistinct ∧
      (∃ pairing, Status.table.Pairs pairing) ∧
      ∃ symbol, Status.table.decode 3 = .ok symbol ∧ Status.table.encode symbol = .ok 3) ∧
    doubled.BytesDistinct ∧ ¬ doubled.SymbolsDistinct ∧ doubled.symbol "high" = .ok "high" ∧
      doubled.decode 2 = .ok "high" ∧ doubled.encode "high" = .ok 1 ∧
      doubled.encode "none" = .error (.unknownSymbol "level" "none") ∧
      doubled.decode 3 = .error (.invalidEnum "level" 3) := by
  obtain ⟨-, -, -, hwritten, hpairing⟩ := lookups_inverse Status.table
  obtain ⟨hwrite, hread, hback, -, -⟩ := lookups_inverse doubled
  have hbytes : Status.table.BytesDistinct := by decide
  have hsymbols : Status.table.SymbolsDistinct := by decide
  have hdoubled : doubled.BytesDistinct := by decide
  refine ⟨⟨hbytes, hsymbols, hpairing hbytes hsymbols, hwritten hsymbols 3 (by decide)⟩,
    hdoubled, by decide, ?_, ?_, ?_, ?_, ?_⟩
  · exact ((hback hdoubled).2 "high" "high").mpr ⟨by decide, rfl⟩
  · exact ((hread 2).1 "high").mpr ⟨[(0, "low"), (1, "high")], [], rfl, by decide⟩
  · exact ((hwrite "high").1 1).mpr ⟨[(0, "low")], [(2, "high")], rfl, by decide⟩
  · exact ((hwrite "none").2.1 _).mpr ⟨by decide, rfl⟩
  · exact ((hread 3).2 _).mpr ⟨by decide, rfl⟩

end EnumTable

theorem Status.tabulates :
    table.Tabulates [waiting, active, expired, paused, canceled] byte symbol where
  entries := rfl
  complete status := by cases status <;> decide
  bytesDistinct := by decide
  symbolsDistinct := by decide

theorem Selector.tabulates : table.Tabulates [status, fee, admin] byte symbol where
  entries := rfl
  complete selector := by cases selector <;> decide
  bytesDistinct := by decide
  symbolsDistinct := by decide

namespace Flag

theorem decode_encode (flag : Bool) : decode (encode flag) = .ok flag := by
  cases flag <;> rfl

theorem encode_of_decode {byte : UInt8} {flag : Bool} (h : decode byte = .ok flag) :
    encode flag = byte := by
  unfold decode at h
  split_ifs at h with h0 h1
  · cases h; exact h0.symm
  · cases h; exact h1.symm

theorem decode_eq_ok_iff {byte : UInt8} {flag : Bool} :
    decode byte = .ok flag ↔ byte ≤ 1 ∧ flag = (byte == 1) := by
  constructor
  · intro h
    obtain rfl := encode_of_decode h
    cases flag <;> exact ⟨by decide, rfl⟩
  · rintro ⟨hle, rfl⟩
    have hbyte : byte = 0 ∨ byte = 1 := by
      rw [UInt8.le_iff_toNat_le] at hle
      rw [← UInt8.toNat_inj, ← UInt8.toNat_inj]
      exact Nat.le_one_iff_eq_zero_or_eq_one.mp hle
    rcases hbyte with rfl | rfl <;> rfl

theorem decode_eq_error_iff {byte : UInt8} {cause : CodecError} :
    decode byte = .error cause ↔ byte ≠ 0 ∧ byte ≠ 1 ∧ cause = .invalidEnum "bool" byte := by
  unfold decode
  split_ifs with h0 h1
  · exact iff_of_false nofun fun h => h.1 h0
  · exact iff_of_false nofun fun h => h.2.1 h1
  · simp [h0, h1, eq_comm]

end Flag

end VaultWire
