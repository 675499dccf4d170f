import ArchSpec.Json.Decoder

/-!
# Unbounded integers in JSON

An integer is a pair: its sign as -1, 0 or 1, and the digits of its magnitude
in base `2 ^ 32`, the least significant one first.  Reading takes any digits
with any sign; a magnitude of zero, or the sign zero, gives zero.
-/

namespace ArchSpec.Json

/-- The base of the digits. -/
def limbBase : Nat := pow2 32

/-- The digits of a natural number, least significant first; zero has none. -/
def limbs (n : Nat) : List Nat :=
  if _hzero : n = 0 then [] else n % limbBase :: limbs (n / limbBase)
termination_by n
decreasing_by exact Nat.div_lt_self (Nat.pos_of_ne_zero _hzero) (by decide)

/-- The number that digits denote. -/
def ofLimbs : List Nat → Nat
  | [] => 0
  | first :: rest => first + limbBase * ofLimbs rest

def ofInteger (n : Int) : Json :=
  .arr [.int n.sign, .arr ((limbs n.natAbs).map .nat)]

namespace Decoder

def sign : Decoder Int
  | _, .int n => if n = -1 ∨ n = 0 ∨ n = 1 then some n else none
  | _, _ => none

def integer : Decoder Int := fun level json => do
  let (sign, digits) ← pair sign (list word) level json
  return sign * ofLimbs (digits.map UInt32.toNat)

end Decoder

end ArchSpec.Json
