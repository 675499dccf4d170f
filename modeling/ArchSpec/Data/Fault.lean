import ArchSpec.Data.Shape

/-!
# Faults

A fault ends a run.  Nothing inside a program can catch it; the language's own
exceptions are values and travel separately.  Offending values are carried in
their printed form.
-/

namespace ArchSpec

inductive Fault where
  /-- A value has none of the shapes that an operation accepts. -/
  | typeMismatch (value : String) (expected : List Shape)
  | badArity (name : String) (expected actual : Nat)
  | undefinedIdentifier (name : String)
  | badField (field value : String)
  | badIndex (index : Nat) (value : String)
  | duplicateField (field : String)
  | badSlice (start length : Int) (width : Nat)
  | divisionByZero
  | inexactDivision (dividend divisor : Int)
  | assertionFailed
  | uncaughtException (value : String)
  | staticCheck (finding : String)
  | io (reason : String)
deriving DecidableEq

namespace Fault

/-- The short name of a kind of fault. -/
def kind : Fault → String
  | typeMismatch .. => "type-mismatch"
  | badArity .. => "bad-arity"
  | undefinedIdentifier _ => "undefined-identifier"
  | badField .. => "bad-field"
  | badIndex .. => "bad-index"
  | duplicateField _ => "duplicate-field"
  | badSlice .. => "bad-slice"
  | divisionByZero => "division-by-zero"
  | inexactDivision .. => "non-exact-division"
  | assertionFailed => "assertion-failed"
  | uncaughtException _ => "uncaught-exception"
  | staticCheck _ => "static-check"
  | io _ => "io"

def message : Fault → String
  | typeMismatch value expected =>
      "type mismatch: " ++ value ++ " is not of type " ++ Shape.printAll expected
  | badArity name expected actual =>
      "bad arity: " ++ name ++ " expects " ++ toString expected ++
        " argument(s), got " ++ toString actual
  | undefinedIdentifier name => "undefined identifier: " ++ name
  | badField field value => "no field " ++ field ++ " in " ++ value
  | badIndex index value =>
      "index " ++ toString index ++ " out of bounds in " ++ value
  | duplicateField field => "duplicate field " ++ field
  | badSlice start length width =>
      "slice [" ++ toString start ++ " +: " ++ toString length ++
        "] out of range for bits(" ++ toString width ++ ")"
  | divisionByZero => "division by zero"
  | inexactDivision dividend divisor =>
      toString dividend ++ " DIV " ++ toString divisor ++ " is not exact"
  | assertionFailed => "assertion failed"
  | uncaughtException value => "uncaught exception: " ++ value
  | staticCheck finding => "static check failed: " ++ finding
  | io reason => "IO error: " ++ reason

end Fault

end ArchSpec
