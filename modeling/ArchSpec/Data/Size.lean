/-!
# Machine sizes

Widths, bit positions, slice lengths and tuple indices are unsigned 64-bit
words.  Integers of the language are unbounded, so every integer that is used
as a size passes through `ofInt?`.  Where the sum of two sizes is kept without a
look at it, a sum that is no size is an overflow, which ends the program.
-/

namespace ArchSpec

/-- The power of two with an exponent, which is the number of values that so
many bits have. -/
def pow2 (exponent : Nat) : Nat := Nat.pow 2 exponent

theorem pow2_cast_pos (exponent : Nat) : (0 : Int) < pow2 exponent :=
  Int.natCast_pos.mpr (Nat.two_pow_pos exponent)

namespace Size

/-- The first number that is too large to be a size. -/
def bound : Nat := pow2 64

/-- The size that an integer denotes, if it denotes one. -/
def ofInt? (n : Int) : Option Nat :=
  if 0 ≤ n ∧ n < (bound : Int) then some n.toNat else none

theorem ofInt?_eq_some_iff {n : Int} {size : Nat} :
    ofInt? n = some size ↔ n = size ∧ size < bound := by
  unfold ofInt?
  split <;> simp only [Option.some.injEq, reduceCtorEq, false_iff] <;> omega

end Size

end ArchSpec
