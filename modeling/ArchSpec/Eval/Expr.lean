import ArchSpec.Eval.State
import ArchSpec.Data.Slicing
import ArchSpec.Program.Ty

/-!
# Evaluation of expressions

Operands are evaluated from left to right.  Operands without calls are
independent of each other: both are evaluated even if the first one fails, and
the first fault counts.  The connectives that their left operand can decide
evaluate the right one only if it does not.  What a call means is a parameter
here.
-/

namespace ArchSpec

inductive Caller where
  /-- An expression, for the one result. -/
  | expression
  /-- A statement, which drops the results. -/
  | statement
  /-- The run itself, which starts with the entry point. -/
  | run
deriving DecidableEq

/-- What a call of a subprogram does, with its results. -/
abbrev Calls := Caller → String → List Value → Eval (List Value)

namespace Eval

/-- The one result of a call, for its value. -/
def theResult (callee : String) : List Value → Eval Value
  | [value] => return value
  | _ => Effect.fault (.staticCheck (callee ++ " does not return exactly one value"))

/-- Runs two computations, independent of each other if `independent` says so
and otherwise one after the other. -/
def pair {α β : Type} (independent : Bool) (first : Eval α) (second : Eval β) :
    Eval (α × β) :=
  if independent then Effect.both first second
  else do
    let left ← first
    let right ← second
    return (left, right)

/-- The length of a range of bits given by both its ends. -/
def rangeLength (high low : Value) : Except Fault Value := do
  BinaryOp.add.apply (← BinaryOp.sub.apply high low) (.int 1)

/-- Exceptions and types that are defined elsewhere have no default value. -/
def noDefault (ty : Ty) : Eval Value :=
  Effect.fault (.staticCheck ("no default value for type " ++ ty.print))

end Eval

open Eval

mutual

def Expr.eval (calls : Calls) : Expr → Eval Value
  | .literal literal => Effect.lift literal.value
  | .var name => readVariable name
  | .binary op left right =>
      match op.decidedBy with
      | some decisive => do
          let value ← left.eval calls
          if (← Effect.lift value.asBool) = decisive then
            Effect.lift (op.apply value value)
          else
            let other ← right.eval calls
            Effect.lift (op.apply value other)
      | none => do
          let (value, other) ← pair (left.callFree && right.callFree)
            (left.eval calls) (right.eval calls)
          Effect.lift (op.apply value other)
  | .unary op operand => do
      let value ← operand.eval calls
      Effect.lift (op.apply value)
  | .call callee args => do
      let values ← Expr.evalAll calls args
      let results ← calls .expression callee values
      theResult callee results
  | .slice source slices => do
      let value ← source.eval calls
      let positions ← SliceExpr.evalAll calls slices
      Effect.liftSized (Slice.read positions value)
  | .concat items => do
      let values ← Expr.evalAll calls items
      Effect.liftSized (Slice.concat values)
  | .cond test yes no => do
      let value ← test.eval calls
      Effect.select value (yes.eval calls) (no.eval calls)
  | .tuple items => do
      let values ← Expr.evalAll calls items
      return .tuple values
  | .item source index => do
      let value ← source.eval calls
      Effect.lift (value.getItem index.toNat)
  | .record fields => do
      let values ← Expr.evalFields calls fields
      Effect.lift (Value.makeRecord values)
  | .field source name => do
      let value ← source.eval calls
      Effect.lift (value.getField name)
  | .exception name fields => do
      let values ← Expr.evalFields calls fields
      Effect.lift (Value.makeException name values)

def Expr.evalAll (calls : Calls) : List Expr → Eval (List Value)
  | [] => return []
  | first :: rest => do
      let (value, values) ← pair (first.callFree && Expr.allCallFree rest)
        (first.eval calls) (Expr.evalAll calls rest)
      return value :: values

/-- The values of fields, strictly from left to right. -/
def Expr.evalFields (calls : Calls) : List (String × Expr) → Eval (Named Value)
  | [] => return []
  | (name, first) :: rest => do
      let value ← first.eval calls
      let values ← Expr.evalFields calls rest
      return (name, value) :: values

/-- The start and length of a slice. -/
def SliceExpr.eval (calls : Calls) : SliceExpr → Eval (Value × Value)
  | .single index => do
      let start ← index.eval calls
      return (start, .int 1)
  | .range high low => do
      let (high, low) ← pair (high.callFree && low.callFree)
        (high.eval calls) (low.eval calls)
      let length ← Effect.lift (rangeLength high low)
      return (low, length)
  | .length start length =>
      pair (start.callFree && length.callFree) (start.eval calls) (length.eval calls)

/-- The starts and lengths of slices, strictly from left to right. -/
def SliceExpr.evalAll (calls : Calls) : List SliceExpr → Eval (List (Value × Value))
  | [] => return []
  | first :: rest => do
      let position ← first.eval calls
      let positions ← SliceExpr.evalAll calls rest
      return position :: positions

end

mutual

/-- The value that a declaration of a type starts with. -/
def Ty.default (calls : Calls) : Ty → Eval Value
  | .integer => return .int 0
  | .boolean => return .bool false
  | .bits width => do
      let value ← width.eval calls
      Effect.lift value.zeros
  | .string => return .str ""
  | .tuple items => do
      let values ← Ty.defaultAll calls items
      return .tuple values
  | .record fields => do
      let values ← Ty.defaultFields calls fields
      Effect.lift (Value.makeRecord values)
  | .exception fields => noDefault (.exception fields)
  | .named name => noDefault (.named name)

def Ty.defaultAll (calls : Calls) : List Ty → Eval (List Value)
  | [] => return []
  | first :: rest => do
      let value ← first.default calls
      let values ← Ty.defaultAll calls rest
      return value :: values

def Ty.defaultFields (calls : Calls) : List (String × Ty) → Eval (Named Value)
  | [] => return []
  | (name, first) :: rest => do
      let value ← first.default calls
      let values ← Ty.defaultFields calls rest
      return (name, value) :: values

end

end ArchSpec
