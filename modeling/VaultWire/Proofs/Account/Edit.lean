import VaultWire.Proofs.Account.RoundTrip
import VaultWire.Proofs.Schema.Places

/-!
# Edits of accounts

A program that changes an account reads it from its buffer, gives one field another value and writes
the account back. What is written then is the buffer that was read, the place of this field apart:
reading loses nothing, the zeros behind a label are written again, and a value that is longer than
its place is cut.
-/

namespace VaultWire

/-- The four values with another one in a slot. -/
def Quad.set {α : Type} (q : Quad α) (slot : Fin 4) (a : α) : Quad α :=
  match slot with
  | 0 => { q with first := a }
  | 1 => { q with second := a }
  | 2 => { q with third := a }
  | 3 => { q with fourth := a }

/-- A field of a config and its new value. The mints are one field in four slots, each of which has
a place of its own. -/
inductive Config.Edit where
  | mints (mints : Quad Address)
  | mint (slot : Fin 4) (mint : Address)
  | authority (authority : Address)
  | owner (owner : Address)
  | admin (admin : Address)
  | label (label : String)
  | fee (fee : UInt64)
  | solBalance (solBalance : UInt64)
  | tokenBalance (tokenBalance : UInt64)
  | updatedAt (updatedAt : UInt32)
  | isAuthorized (isAuthorized : Bool)
  | status (status : Status)
  | bump (bump : UInt8)

/-- A field of an escrow and its new value. -/
inductive Escrow.Edit where
  | maker (maker : Address)
  | mintMaker (mintMaker : Address)
  | mintTaker (mintTaker : Address)
  | amount (amount : UInt64)
  | bump (bump : UInt8)

namespace Config.Edit

def apply (config : Config) : Edit → Config
  | mints new => { config with mints := new }
  | mint slot new => { config with mints := config.mints.set slot new }
  | authority new => { config with authority := new }
  | owner new => { config with owner := new }
  | admin new => { config with admin := new }
  | label new => { config with label := new }
  | fee new => { config with fee := new }
  | solBalance new => { config with solBalance := new }
  | tokenBalance new => { config with tokenBalance := new }
  | updatedAt new => { config with updatedAt := new }
  | isAuthorized new => { config with isAuthorized := new }
  | status new => { config with status := new }
  | bump new => { config with bump := new }

def offset : Edit → Nat
  | mints _ => 0
  | mint slot _ => 32 * slot
  | authority _ => 128
  | owner _ => 160
  | admin _ => 192
  | label _ => 224
  | fee _ => 256
  | solBalance _ => 264
  | tokenBalance _ => 272
  | updatedAt _ => 280
  | isAuthorized _ => 284
  | status _ => 285
  | bump _ => 286

def width : Edit → Nat
  | mints _ => 128
  | mint _ _ | authority _ | owner _ | admin _ | label _ => 32
  | fee _ | solBalance _ | tokenBalance _ => 8
  | updatedAt _ => 4
  | isAuthorized _ | status _ | bump _ => 1

end Config.Edit

namespace Escrow.Edit

def apply (escrow : Escrow) : Edit → Escrow
  | maker new => { escrow with maker := new }
  | mintMaker new => { escrow with mintMaker := new }
  | mintTaker new => { escrow with mintTaker := new }
  | amount new => { escrow with amount := new }
  | bump new => { escrow with bump := new }

def offset : Edit → Nat
  | maker _ => 0
  | mintMaker _ => 32
  | mintTaker _ => 64
  | amount _ => 96
  | bump _ => 104

def width : Edit → Nat
  | maker _ | mintMaker _ | mintTaker _ => 32
  | amount _ => 8
  | bump _ => 1

end Escrow.Edit

variable {raw : Bytes}

namespace Packed

variable {α : Type} [Packed α] [LawfulPacked α] {account : α}

/-- An account that has the values of the one that was read, the fields from index `i` up to `j`
apart, is written with the bytes of the buffer that was read, the place of these fields apart. -/
theorem pack_of_unpack_of_same (h : unpack raw = .ok account) (edited : α) (i j : Nat)
    {width : Nat} (htake : (values edited).take i = (values account).take i)
    (hdrop : (values edited).drop j = (values account).drop j)
    (hplace : (schema α).offsetAt j = (schema α).offsetAt i + width) :
    ∃ written, pack edited = .ok written ∧
      Bytes.AgreeOutside ((schema α).offsetAt i) width written raw := by
  obtain ⟨written, hwritten, -⟩ := exists_pack edited
  have hraw : pack account = .ok raw := pack_of_unpack h
  exact ⟨written, hwritten, Schema.agreeOutside_of_encode hraw hwritten htake hdrop hplace⟩

end Packed

theorem Config.Edit.pack_apply {config : Config} (h : Packed.unpack raw = .ok config) (edit : Edit) :
    ∃ written, Packed.pack (edit.apply config) = .ok written ∧
      Bytes.AgreeOutside edit.offset edit.width written raw := by
  have agree := Packed.pack_of_unpack_of_same h
  -- The mints are the first four fields of the layout, and every other edit changes one field.
  cases edit with
  | mints => exact agree _ 0 4 rfl rfl rfl
  | mint slot =>
      match slot with
      | 0 => exact agree _ 0 1 rfl rfl rfl
      | 1 => exact agree _ 1 2 rfl rfl rfl
      | 2 => exact agree _ 2 3 rfl rfl rfl
      | 3 => exact agree _ 3 4 rfl rfl rfl
  | authority => exact agree _ 4 5 rfl rfl rfl
  | owner => exact agree _ 5 6 rfl rfl rfl
  | admin => exact agree _ 6 7 rfl rfl rfl
  | label => exact agree _ 7 8 rfl rfl rfl
  | fee => exact agree _ 8 9 rfl rfl rfl
  | solBalance => exact agree _ 9 10 rfl rfl rfl
  | tokenBalance => exact agree _ 10 11 rfl rfl rfl
  | updatedAt => exact agree _ 11 12 rfl rfl rfl
  | isAuthorized => exact agree _ 12 13 rfl rfl rfl
  | status => exact agree _ 13 14 rfl rfl rfl
  | bump => exact agree _ 14 15 rfl rfl rfl

theorem Escrow.Edit.pack_apply {escrow : Escrow} (h : Packed.unpack raw = .ok escrow) (edit : Edit) :
    ∃ written, Packed.pack (edit.apply escrow) = .ok written ∧
      Bytes.AgreeOutside edit.offset edit.width written raw := by
  have agree := Packed.pack_of_unpack_of_same h
  cases edit with
  | maker => exact agree _ 0 1 rfl rfl rfl
  | mintMaker => exact agree _ 1 2 rfl rfl rfl
  | mintTaker => exact agree _ 2 3 rfl rfl rfl
  | amount => exact agree _ 3 4 rfl rfl rfl
  | bump => exact agree _ 4 5 rfl rfl rfl

/-- An account that was read and of which one field is given a new value is always written, and is
written without a change outside the place of this field. It is read back with the new value, unless
this is a label that does not fit. -/
theorem Packed.agreeOutside_of_edit :
    (∀ raw, ∀ config : Config, unpack raw = .ok config → ∀ edit : Config.Edit,
      ∃ written, pack (edit.apply config) = .ok written ∧
        Bytes.AgreeOutside edit.offset edit.width written raw ∧
        (unpack written = .ok (edit.apply config) ↔
          Text.Fits 32 (edit.apply config).label)) ∧
    ∀ raw, ∀ escrow : Escrow, unpack raw = .ok escrow → ∀ edit : Escrow.Edit,
      ∃ written, pack (edit.apply escrow) = .ok written ∧
        Bytes.AgreeOutside edit.offset edit.width written raw ∧
        unpack written = .ok (edit.apply escrow) := by
  constructor
  · intro raw config h edit
    obtain ⟨written, hwritten, hagree⟩ := edit.pack_apply h
    exact ⟨written, hwritten, hagree, Config.unpack_of_pack_eq_self_iff hwritten⟩
  · intro raw escrow h edit
    obtain ⟨written, hwritten, hagree⟩ := edit.pack_apply h
    exact ⟨written, hwritten, hagree, Escrow.unpack_of_pack hwritten⟩

/-- A label that is cut within its last letter stays in its place, and so does an amount. -/
theorem Packed.agreeOutside_of_edit_label :
    (∃ written,
      pack { (default : Config) with label := "a label of 33 bytes in its placé" } = .ok written ∧
        Bytes.AgreeOutside 224 32 written (Bytes.zeros 287) ∧
        (unpack written =
            .ok { (default : Config) with label := "a label of 33 bytes in its placé" } ↔
          Text.Fits 32 "a label of 33 bytes in its placé")) ∧
    ∃ written, pack { (default : Escrow) with amount := 258 } = .ok written ∧
      Bytes.AgreeOutside 96 8 written (Bytes.zeros 105) ∧
      unpack written = .ok { (default : Escrow) with amount := 258 } := by
  obtain ⟨hconfig, hescrow⟩ := agreeOutside_of_edit
  exact ⟨hconfig _ default (by decide +kernel) (.label "a label of 33 bytes in its placé"),
    hescrow _ default (by decide +kernel) (.amount 258)⟩

end VaultWire
