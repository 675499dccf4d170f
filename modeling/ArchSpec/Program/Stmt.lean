import ArchSpec.Program.Ty

/-!
# Statements

A target is a place that can be assigned: a variable, or a slice, field or
item of another place.  A handler runs for the first catcher that names the
exception, and otherwise for the catch-all if there is one.
-/

namespace ArchSpec

inductive Target where
  /-- The value is evaluated and dropped. -/
  | discard
  | var (name : String)
  | slice (whole : Target) (slices : List SliceExpr)
  | field (whole : Target) (name : String)
  | item (whole : Target) (index : UInt64)

mutual

inductive Stmt where
  | pass
  /-- Statements that share one block. -/
  | block (stmts : List Stmt)
  | declare (name : String) (ty : Option Ty) (init : Option Expr)
  | assign (target : Target) (value : Expr)
  /-- A call whose results are dropped. -/
  | call (callee : String) (args : List Expr)
  | ret (value : Option Expr)
  | branch (test : Expr) (yes no : Stmt)
  /-- A counted loop; both bounds are included. -/
  | count (index : String) (first last : Expr) (down : Bool) (body : Stmt)
  | loop (test : Expr) (body : Stmt)
  | assert (test : Expr)
  /-- Without an expression, the exception being handled is thrown again. -/
  | raise (exc : Option Expr)
  | attempt (body : Stmt) (catchers : List Catcher) (otherwise : Option Stmt)

/-- A handler for one exception name, which may bind the exception. -/
inductive Catcher where
  | mk (binding : Option String) (exception : String) (body : Stmt)

end

end ArchSpec
