import VaultWire.Integer

/-!
# Machine words

The unsigned words of one, four and eight bytes. A number of any size is narrowed to a word if it is
below the word's bound, and a byte string of exactly the word's width is read in word arithmetic,
without the detour over numbers of any size.
-/

namespace VaultWire

-- Powers are those of the core library, whatever other instances are in scope.
attribute [local instance(2000)] instPowNat

/-- An unsigned word that holds the numbers below `256 ^ width`. -/
class Word (α : Type) where
  width : Nat
  toNat : α → Nat
  /-- The word that holds a number, up to multiples of `256 ^ width`. -/
  ofNat : Nat → α
  /-- The word with all bytes moved up by one place and the given byte at the lowest place. -/
  shiftIn : UInt8 → α → α
  toNat_lt : ∀ w : α, toNat w < 256 ^ width
  ofNat_toNat : ∀ w : α, ofNat (toNat w) = w
  toNat_ofNat : ∀ n : Nat, toNat (ofNat n) = n % 256 ^ width
  toNat_shiftIn : ∀ (b : UInt8) (w : α),
    toNat (shiftIn b w) = (b.toNat + 256 * toNat w) % 256 ^ width

namespace Word

variable {α : Type} [Word α]

def bytes (w : α) : Bytes := LittleEndian.encode (width α) (toNat w)

/-- The word that holds `n`, if there is one. -/
def narrow (n : Nat) : Except CodecError α :=
  if n < 256 ^ width α then .ok (ofNat n) else .error (.overflow (toString n) (width α))

/-- The word in a byte string of exactly its width. -/
def decode (bytes : Bytes) : Except CodecError α :=
  if bytes.length = width α then .ok (bytes.foldr shiftIn (ofNat 0))
  else .error (.schemaLength (width α) bytes.length)

end Word

instance : Word UInt8 where
  width := 1
  toNat := UInt8.toNat
  ofNat := UInt8.ofNat
  shiftIn b _ := b
  toNat_lt w := w.toNat_lt
  ofNat_toNat w := by simp
  toNat_ofNat n := by simp
  toNat_shiftIn b w := by
    have := b.toNat_lt
    omega

instance : Word UInt32 where
  width := 4
  toNat := UInt32.toNat
  ofNat := UInt32.ofNat
  shiftIn b w := (w <<< 8) ||| b.toUInt32
  toNat_lt w := w.toNat_lt
  ofNat_toNat w := by simp
  toNat_ofNat n := by simp
  toNat_shiftIn b w := by
    have hb := b.toNat_lt
    simp only [UInt32.toNat_or, UInt32.toNat_shiftLeft, UInt8.toNat_toUInt32]
    have h8 : (8 : UInt32).toNat % 32 = 8 := by decide
    rw [h8, Nat.shiftLeft_eq]
    have hm : w.toNat * 2 ^ 8 % 2 ^ 32 = 2 ^ 8 * (w.toNat % 2 ^ 24) := by omega
    rw [hm, ← Nat.two_pow_add_eq_or_of_lt (by omega)]
    omega

instance : Word UInt64 where
  width := 8
  toNat := UInt64.toNat
  ofNat := UInt64.ofNat
  shiftIn b w := (w <<< 8) ||| b.toUInt64
  toNat_lt w := w.toNat_lt
  ofNat_toNat w := by simp
  toNat_ofNat n := by simp
  toNat_shiftIn b w := by
    have hb := b.toNat_lt
    simp only [UInt64.toNat_or, UInt64.toNat_shiftLeft, UInt8.toNat_toUInt64]
    have h8 : (8 : UInt64).toNat % 64 = 8 := by decide
    rw [h8, Nat.shiftLeft_eq]
    have hm : w.toNat * 2 ^ 8 % 2 ^ 64 = 2 ^ 8 * (w.toNat % 2 ^ 56) := by omega
    rw [hm, ← Nat.two_pow_add_eq_or_of_lt (by omega)]
    omega

end VaultWire
