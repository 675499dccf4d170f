import ArchSpec.Data.Value

/-!
# Operators

Arithmetic is on unbounded integers, on bit vectors of equal width, and on a
bit vector with an integer.  Division rounds towards minus infinity; the exact
division refuses a remainder.  Exponents must be 32-bit numbers and shift
amounts sizes.

When operands do not fit an operator, the left one is blamed if no row of the
operator takes its shape, and otherwise the right one, which is then expected
to look like the left one.
-/

namespace ArchSpec

inductive BinaryOp where
  | add | sub | mul | div | divRm | mod | pow | shl | shr
  | eq | ne | lt | gt | le | ge
  | and | or | impl | equiv
  | bitAnd | bitOr | bitXor
deriving DecidableEq

inductive UnaryOp where
  | neg
  | not
  | bitNot
deriving DecidableEq

namespace BinaryOp

/-- Every operator, in the order of the language's tables. -/
def all : List BinaryOp :=
  [add, sub, mul, div, divRm, mod, pow, shl, shr, eq, ne, lt, gt, le, ge,
    and, or, impl, equiv, bitAnd, bitOr, bitXor]

/-- The operator as it is written between its operands. -/
def symbol : BinaryOp → String
  | add => "+"
  | sub => "-"
  | mul => "*"
  | div => "DIV"
  | divRm => "DIVRM"
  | mod => "MOD"
  | pow => "^"
  | shl => "<<"
  | shr => ">>"
  | eq => "=="
  | ne => "!="
  | lt => "<"
  | gt => ">"
  | le => "<="
  | ge => ">="
  | and => "&&"
  | or => "||"
  | impl => "-->"
  | equiv => "<->"
  | bitAnd => "AND"
  | bitOr => "OR"
  | bitXor => "XOR"

/-- The shapes that an operator takes on its left. -/
def leftShapes : BinaryOp → List Shape
  | add | sub => [.integer, .bits none]
  | mul | div | divRm | mod | pow | shl | shr | lt | gt | le | ge => [.integer]
  | eq | ne => [.integer, .boolean, .bits none, .string]
  | and | or | impl | equiv => [.boolean]
  | bitAnd | bitOr | bitXor => [.bits none]

/-- The value of a left operand that alone decides the result. -/
def decidedBy : BinaryOp → Option Bool
  | and => some false
  | or => some true
  | impl => some false
  | _ => none

end BinaryOp

namespace Shape

/-- Two shapes of the same kind, whatever their range or width. -/
def sameKind : Shape → Shape → Bool
  | integer, integer => true
  | range .., range .. => true
  | boolean, boolean => true
  | bits _, bits _ => true
  | string, string => true
  | tuple, tuple => true
  | record, record => true
  | exception, exception => true
  | _, _ => false

end Shape

namespace BinaryOp

/-- The fault of operands that do not fit. -/
def blame (op : BinaryOp) (left right : Value) : Fault :=
  if op.leftShapes.any fun shape => shape.sameKind left.shape then
    right.mismatch [left.shape]
  else left.mismatch op.leftShapes

/-- The divisor, unless it is zero. -/
def nonZero (n : Int) : Except Fault Int :=
  if n = 0 then .error .divisionByZero else .ok n

/-- The quotient rounded towards minus infinity: that rounded towards zero, less
one if it leaves a rest whose sign is not the divisor's. -/
def floorDiv (a b : Int) : Int :=
  let quotient := a.tdiv b
  let rest := a - quotient * b
  if rest ≠ 0 ∧ ¬(rest < 0 ↔ b < 0) then quotient - 1 else quotient

/-- An exponent is a 32-bit number. -/
def exponent (value : Value) : Except Fault Nat := do
  let n ← value.asInt
  if 0 ≤ n ∧ n < pow2 32 then return n.toNat
  else throw (value.mismatch [.natural])

/-- Multiplication by a power of two; zero stays zero for every amount. -/
def shiftLeft (n : Int) (amount : Nat) : Int :=
  if n = 0 then 0 else n * pow2 amount

/-- Equality of two scalars of one shape. -/
def sameScalar? : Value → Value → Option Bool
  | .int a, .int b => some (a = b)
  | .bool a, .bool b => some (a = b)
  | .str a, .str b => some (a = b)
  | .bits a, .bits b => if a.width = b.width then some (a = b) else none
  | _, _ => none

def onIntegers (op : BinaryOp) (a b : Int) : Option (Except Fault Value) :=
  match op with
  | add => some (.ok (.int (a + b)))
  | sub => some (.ok (.int (a - b)))
  | mul => some (.ok (.int (a * b)))
  | div => some do
      let b ← nonZero b
      if a.tmod b = 0 then return .int (a.tdiv b) else throw (.inexactDivision a b)
  | divRm => some do return .int (floorDiv a (← nonZero b))
  | mod => some do
      let b ← nonZero b
      return .int (a - floorDiv a b * b)
  | pow => some do return .int (a.pow (← exponent (.int b)))
  | shl => some do return .int (shiftLeft a (← (Value.int b).asSize))
  | shr => some do return .int (a >>> (← (Value.int b).asSize))
  | lt => some (.ok (.bool (a < b)))
  | le => some (.ok (.bool (a ≤ b)))
  | gt => some (.ok (.bool (b < a)))
  | ge => some (.ok (.bool (b ≤ a)))
  | _ => none

def onBooleans (op : BinaryOp) (a b : Bool) : Option Bool :=
  match op with
  | and => some (a && b)
  | or => some (a || b)
  | impl => some (!a || b)
  | equiv => some (a == b)
  | _ => none

/-- An operator on two bit vectors of one width. -/
def onBits (op : BinaryOp) (a b : Bits) : Option Bits :=
  match op with
  | bitAnd => some (a.and b)
  | bitOr => some (a.or b)
  | bitXor => some (a.xor b)
  | add => some (a.addInt b.unsigned)
  | sub => some (a.addInt (-b.unsigned))
  | _ => none

/-- The result of a binary operator on operands that fit. -/
def onFitting (op : BinaryOp) (left right : Value) : Option (Except Fault Value) :=
  match op, left, right with
  | eq, left, right => (sameScalar? left right).map fun same => .ok (.bool same)
  | ne, left, right => (sameScalar? left right).map fun same => .ok (.bool !same)
  | op, .int a, .int b => onIntegers op a b
  | op, .bool a, .bool b => (onBooleans op a b).map fun result => .ok (.bool result)
  | op, .bits a, .bits b =>
      if a.width = b.width then (onBits op a b).map fun result => .ok (.bits result)
      else none
  | add, .bits a, .int n => some (.ok (.bits (a.addInt n)))
  | sub, .bits a, .int n => some (.ok (.bits (a.addInt (-n))))
  | _, _, _ => none

def apply (op : BinaryOp) (left right : Value) : Except Fault Value :=
  match op.onFitting left right with
  | some result => result
  | none => .error (op.blame left right)

end BinaryOp

namespace UnaryOp

/-- Every operator, in the order of the language's tables. -/
def all : List UnaryOp := [neg, not, bitNot]

/-- The operator as it is written before its operand. -/
def symbol : UnaryOp → String
  | neg => "-"
  | not => "!"
  | bitNot => "NOT"

def shape : UnaryOp → Shape
  | neg => .integer
  | not => .boolean
  | bitNot => .bits none

def apply (op : UnaryOp) (value : Value) : Except Fault Value :=
  match op, value with
  | neg, .int n => .ok (.int (-n))
  | not, .bool b => .ok (.bool !b)
  | bitNot, .bits b => .ok (.bits b.not)
  | op, value => .error (value.mismatch [op.shape])

end UnaryOp

end ArchSpec
