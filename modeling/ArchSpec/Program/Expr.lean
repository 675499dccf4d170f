import ArchSpec.Data.Operator

/-!
# Expressions

Programs arrive as trees; there is no concrete notation to read.  A bit slice
is a single position, a range with the high bit first, or a start with a
length.  An expression without calls can neither throw nor print.
-/

namespace ArchSpec

inductive Literal where
  | int (n : Int)
  | bool (b : Bool)
  /-- Digits of a bit vector, most significant first; spaces are allowed. -/
  | bits (digits : String)
  | str (text : String)

namespace Literal

def print : Literal → String
  | int n => toString n
  | bool b => if b then "TRUE" else "FALSE"
  | bits digits => "'" ++ digits ++ "'"
  | str text => Text.quote text

/-- The value of a constant; the digits of a bit vector are checked here. -/
def value (literal : Literal) : Except Fault Value :=
  match literal with
  | int n => .ok (.int n)
  | bool b => .ok (.bool b)
  | bits digits =>
      match Bits.ofString? digits with
      | some b => .ok (.bits b)
      | none => .error (.typeMismatch literal.print [.bits none])
  | str text => .ok (.str text)

end Literal

mutual

inductive Expr where
  | literal (value : Literal)
  | var (name : String)
  | binary (op : BinaryOp) (left right : Expr)
  | unary (op : UnaryOp) (operand : Expr)
  | call (callee : String) (args : List Expr)
  | slice (source : Expr) (slices : List SliceExpr)
  | concat (items : List Expr)
  | cond (test yes no : Expr)
  | tuple (items : List Expr)
  | item (source : Expr) (index : UInt64)
  | record (fields : List (String × Expr))
  | field (source : Expr) (name : String)
  | exception (name : String) (fields : List (String × Expr))

/-- Slices of a bit vector or an integer. -/
inductive SliceExpr where
  | single (index : Expr)
  /-- Both ends included, the high one first. -/
  | range (high low : Expr)
  | length (start length : Expr)

end

mutual

def Expr.callFree : Expr → Bool
  | .literal _ => true
  | .var _ => true
  | .binary _ left right => left.callFree && right.callFree
  | .unary _ operand => operand.callFree
  | .call .. => false
  | .slice source slices => source.callFree && SliceExpr.allCallFree slices
  | .concat items => Expr.allCallFree items
  | .cond test yes no => test.callFree && yes.callFree && no.callFree
  | .tuple items => Expr.allCallFree items
  | .item source _ => source.callFree
  | .record fields => Expr.fieldsCallFree fields
  | .field source _ => source.callFree
  | .exception _ fields => Expr.fieldsCallFree fields

/-- No call occurs in any of the expressions. -/
def Expr.allCallFree : List Expr → Bool
  | [] => true
  | first :: rest => first.callFree && Expr.allCallFree rest

/-- No call occurs in any of the fields. -/
def Expr.fieldsCallFree : List (String × Expr) → Bool
  | [] => true
  | (_, first) :: rest => first.callFree && Expr.fieldsCallFree rest

def SliceExpr.callFree : SliceExpr → Bool
  | .single index => index.callFree
  | .range high low => high.callFree && low.callFree
  | .length start length => start.callFree && length.callFree

/-- No call occurs in any of the slices. -/
def SliceExpr.allCallFree : List SliceExpr → Bool
  | [] => true
  | first :: rest => first.callFree && SliceExpr.allCallFree rest

end

end ArchSpec
