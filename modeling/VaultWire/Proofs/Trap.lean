import VaultWire.Bytes.Basic
import VaultWire.Proofs.Except

/-!
# What stops a program

Sums of machine words, bytes and slices of a buffer and copies from one buffer to another, each with
what stops a program at it: a sum that is no word, a place outside the buffer, slices of two lengths.
Where the bounds are kept, nothing stops them.
-/

namespace VaultWire

/-- What stops a program, other than an error that it reports. -/
inductive Trap where
  | overflow (sum : Nat)
  /-- The bytes from `start` to before `stop` were asked of a buffer that has not all of them. -/
  | outside (start stop length : Nat)
  deriving DecidableEq

/-- What stops a copy from one slice to another. -/
inductive CopyTrap where
  | slice (trap : Trap)
  | lengths (target source : Nat)
  deriving DecidableEq

namespace Checked

/-- The sum of two machine words that have `limit` values. -/
def sum (limit a b : Nat) : Except Trap Nat :=
  if a + b < limit then .ok (a + b) else .error (.overflow (a + b))

def byte (raw : Bytes) (index : Nat) : Except Trap UInt8 :=
  if h : index < raw.length then .ok raw[index] else .error (.outside index (index + 1) raw.length)

def slice (raw : Bytes) (start stop : Nat) : Except Trap Bytes :=
  if start ≤ stop ∧ stop ≤ raw.length then .ok ((raw.drop start).take (stop - start))
  else .error (.outside start stop raw.length)

/-- The buffer `dst` with the slice of its first `count` bytes overwritten by that of `src`. -/
def copyFront (dst src : Bytes) (count : Nat) : Except CopyTrap Bytes := do
  let target ← (slice dst 0 count).mapError .slice
  let source ← (slice src 0 count).mapError .slice
  if target.length = source.length then return Bytes.overwrite dst source
  else throw (.lengths target.length source.length)

variable {limit : Nat} {raw dst src : Bytes} {count : Nat}

theorem sum_of_lt {a b : Nat} (h : a + b < limit) : sum limit a b = .ok (a + b) := if_pos h

theorem byte_of_lt {index : Nat} (h : index < raw.length) : byte raw index = .ok raw[index] :=
  dif_pos h

theorem slice_of_le {start width : Nat} (h : start + width ≤ raw.length) :
    slice raw start (start + width) = .ok ((raw.drop start).take width) := by
  rw [slice, if_pos ⟨Nat.le_add_right start width, h⟩, Nat.add_sub_cancel_left]

theorem slice_front_of_le (h : count ≤ raw.length) : slice raw 0 count = .ok (raw.take count) :=
  if_pos ⟨Nat.zero_le count, h⟩

theorem exists_slice_iff {start stop : Nat} :
    (∃ part, slice raw start stop = .ok part) ↔ start ≤ stop ∧ stop ≤ raw.length :=
  exists_ite_eq_ok_iff

theorem copyFront_of_le (hdst : count ≤ dst.length) (hsrc : count ≤ src.length) :
    copyFront dst src count = .ok (src.take count ++ dst.drop count) := by
  have hsource : (src.take count).length = count := by rw [List.length_take, Nat.min_eq_left hsrc]
  have htarget : (dst.take count).length = count := by rw [List.length_take, Nat.min_eq_left hdst]
  rw [copyFront, slice_front_of_le hdst, slice_front_of_le hsrc]
  change (if (dst.take count).length = (src.take count).length then _ else _) = _
  rw [htarget, hsource, if_pos rfl, Bytes.overwrite, hsource, List.take_take, Nat.min_eq_right hdst]
  rfl

/-- A copy goes through exactly if both buffers have all the bytes that it is about. -/
theorem exists_copyFront_iff :
    (∃ bytes, copyFront dst src count = .ok bytes) ↔ count ≤ dst.length ∧ count ≤ src.length := by
  constructor
  · rintro ⟨bytes, h⟩
    obtain ⟨target, htarget, hrest⟩ := bind_eq_ok_iff.mp h
    obtain ⟨source, hsource, -⟩ := bind_eq_ok_iff.mp hrest
    exact ⟨(exists_slice_iff.mp ⟨target, mapError_eq_ok_iff.mp htarget⟩).2,
      (exists_slice_iff.mp ⟨source, mapError_eq_ok_iff.mp hsource⟩).2⟩
  · rintro ⟨hdst, hsrc⟩
    exact ⟨_, copyFront_of_le hdst hsrc⟩

end Checked

end VaultWire
