import VaultWire.Address.Basic

/-!
# Points of Curve25519 in Edwards form

An address may be the encoding of a point of the curve `-x² + y² = 1 + d x² y²` over the integers
modulo `p = 2²⁵⁵ - 19`. The encoding gives `y` and the sign of `x`, so the address is a point exactly
if `(y² - 1) / (d y² + 1)` has a square root. Since `-1` is a square and `d` is none, the
denominator is never zero, and the quotient has a root exactly if the product has one.
-/

-- Powers are those of the core library, whatever other instances are in scope.
attribute [local instance(2000)] instPowNat

namespace VaultWire.Curve

def p : Nat := 2 ^ (255 : Nat) - 19

/-- The constant of the curve, `-121665 / 121666` modulo `p`. -/
def d : Nat := 37095705934669439343138083508754565189542113879843219016388785533085940283555

/-- The power `base ^ exponent` modulo `p`, for an exponent of at most `bits` bits. -/
def power : Nat → Nat → Nat → Nat
  | 0, _, _ => 1
  | bits + 1, base, exponent =>
    let rest := power bits (base * base % p) (exponent / 2)
    if exponent % 2 = 1 then base * rest % p else rest

/-- Whether the number is a square modulo `p`, by Euler's criterion; zero is a square. -/
def isSquare (n : Nat) : Bool :=
  let symbol := power 255 (n % p) ((p - 1) / 2)
  symbol == 0 || symbol == 1

/-- The constant is the quotient it is said to be, `-1` is a square and the constant is none. -/
example : (121666 * d + 121665) % p = 0 ∧ isSquare (p - 1) = true ∧ isSquare d = false := by
  decide +kernel

/-- Whether some point has the ordinate `y`, taken modulo `p`. -/
def isOrdinate (y : Nat) : Bool :=
  let square := y * y % p
  isSquare ((square + (p - 1)) * (d * square + 1))

end VaultWire.Curve

namespace VaultWire.Address

/-- Whether the address encodes a point of the curve. The highest bit holds the sign of the abscissa
and has no part in this; an ordinate above the modulus is reduced. -/
def isOnCurve (address : Address) : Bool :=
  Curve.isOrdinate (LittleEndian.decode address.bytes % 2 ^ (255 : Nat))

end VaultWire.Address
