import VaultWire.Account.Config
import VaultWire.Account.Escrow
import VaultWire.Proofs.Schema

/-!
# Accounts told by look-ups

An account is told from a record by one look-up for each of its fields. It is told if and only if
each look-up finds the value that the account has, whatever else the record lists. Its own values,
listed under the names of its layout, tell of it.
-/

namespace VaultWire

theorem Quad.traverse_eq_ok_iff {ε α β : Type} {f : α → Except ε β} {q : Quad α} {r : Quad β} :
    q.traverse f = .ok r ↔ q.toList.map f = r.toList.map .ok := by
  obtain ⟨a, b, c, d⟩ := q
  obtain ⟨a', b', c', d'⟩ := r
  simp only [traverse, bind_eq_ok_iff, toList, List.map_cons, List.map_nil, List.cons.injEq,
    and_true]
  constructor
  · rintro ⟨_, ha, _, hb, _, hc, _, hd, h⟩
    cases h
    exact ⟨ha, hb, hc, hd⟩
  · rintro ⟨ha, hb, hc, hd⟩
    exact ⟨a', ha, b', hb, c', hc, d', hd, rfl⟩

theorem Status.ofSymbol_eq_ok_iff {symbol : String} {status : Status} :
    ofSymbol symbol = .ok status ↔ symbol = status.symbol := by
  constructor
  · intro h
    obtain ⟨byte, hbyte, hstatus⟩ := bind_eq_ok_iff.mp h
    obtain ⟨written, rfl, rfl⟩ := tabulates.mem_iff.mp (EnumTable.mem_of_encode hbyte)
    cases written <;> cases hstatus <;> rfl
  · rintro rfl
    exact ofSymbol_symbol status

/-- What a record has to list, under the names of the layout, for the config to be told from it. -/
structure Config.ToldBy (config : Config) (record : Record) : Prop where
  mints : mintNames.toList.map record.address = config.mints.toList.map .ok
  authority : record.address "authority" = .ok config.authority
  owner : record.address "owner" = .ok config.owner
  admin : record.address "admin" = .ok config.admin
  label : record.text "label" = .ok config.label
  fee : record.word "fee" = .ok config.fee
  solBalance : record.word "sol_balance" = .ok config.solBalance
  tokenBalance : record.word "token_balance" = .ok config.tokenBalance
  updatedAt : record.word "updated_at" = .ok config.updatedAt
  isAuthorized : record.bool "is_authorized" = .ok config.isAuthorized
  status : record.symbol "status" = .ok config.status.symbol
  bump : record.word "bump" = .ok config.bump

theorem Config.ofRecord_eq_ok_iff {record : Record} {config : Config} :
    ofRecord record = .ok config ↔ config.ToldBy record := by
  simp only [ofRecord, bind_eq_ok_iff, Quad.traverse_eq_ok_iff, Status.ofSymbol_eq_ok_iff]
  constructor
  · rintro ⟨_, hmints, _, hauthority, _, howner, _, hadmin, _, hlabel, _, hfee, _, hsol, _, htoken,
      _, hupdated, _, hauthorized, _, hsymbol, _, rfl, _, hbump, h⟩
    cases h
    exact ⟨hmints, hauthority, howner, hadmin, hlabel, hfee, hsol, htoken, hupdated, hauthorized,
      hsymbol, hbump⟩
  · intro h
    exact ⟨_, h.mints, _, h.authority, _, h.owner, _, h.admin, _, h.label, _, h.fee,
      _, h.solBalance, _, h.tokenBalance, _, h.updatedAt, _, h.isAuthorized, _, h.status, _, rfl,
      _, h.bump, rfl⟩

theorem Config.toldBy_record (config : Config) : config.ToldBy (schema.record config.values) where
  mints := rfl
  authority := rfl
  owner := rfl
  admin := rfl
  label := rfl
  fee := Word.narrow_toNat _
  solBalance := Word.narrow_toNat _
  tokenBalance := Word.narrow_toNat _
  updatedAt := Word.narrow_toNat _
  isAuthorized := rfl
  status := rfl
  bump := Word.narrow_toNat _

/-- What a record has to list, under the names of the layout, for the escrow to be told from it. -/
structure Escrow.ToldBy (escrow : Escrow) (record : Record) : Prop where
  maker : record.address "maker" = .ok escrow.maker
  mintMaker : record.address "mint_maker" = .ok escrow.mintMaker
  mintTaker : record.address "mint_taker" = .ok escrow.mintTaker
  amount : record.word "amount" = .ok escrow.amount
  bump : record.word "bump" = .ok escrow.bump

theorem Escrow.ofRecord_eq_ok_iff {record : Record} {escrow : Escrow} :
    ofRecord record = .ok escrow ↔ escrow.ToldBy record := by
  simp only [ofRecord, bind_eq_ok_iff]
  constructor
  · rintro ⟨_, hmaker, _, hmintMaker, _, hmintTaker, _, hamount, _, hbump, h⟩
    cases h
    exact ⟨hmaker, hmintMaker, hmintTaker, hamount, hbump⟩
  · intro h
    exact ⟨_, h.maker, _, h.mintMaker, _, h.mintTaker, _, h.amount, _, h.bump, rfl⟩

theorem Escrow.toldBy_record (escrow : Escrow) : escrow.ToldBy (schema.record escrow.values) where
  maker := rfl
  mintMaker := rfl
  mintTaker := rfl
  amount := Word.narrow_toNat _
  bump := Word.narrow_toNat _

end VaultWire
