/-!
# Four slots

Several parts of the layouts come in fours: the mints of a config, and the flags, words and amounts
of an update.
-/

namespace VaultWire

structure Quad (α : Type) where
  first : α
  second : α
  third : α
  fourth : α
  deriving DecidableEq, Inhabited

namespace Quad

variable {α β : Type}

def toList (q : Quad α) : List α := [q.first, q.second, q.third, q.fourth]

def ofList? : List α → Option (Quad α)
  | [a, b, c, d] => some ⟨a, b, c, d⟩
  | _ => none

/-- The results for the four values in order, or the first failure. -/
def traverse {ε : Type} (f : α → Except ε β) (q : Quad α) : Except ε (Quad β) := do
  let a ← f q.first
  let b ← f q.second
  let c ← f q.third
  let d ← f q.fourth
  return ⟨a, b, c, d⟩

end Quad

end VaultWire
