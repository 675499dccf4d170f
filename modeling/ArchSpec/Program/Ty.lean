import ArchSpec.Program.Expr

/-!
# Type annotations

Types are checked elsewhere; here an annotation only says which default value
a declaration without an initialiser starts with.  The width of a bit vector
type is an expression.
-/

namespace ArchSpec

inductive Ty where
  | integer
  | boolean
  | bits (width : Expr)
  | string
  | tuple (items : List Ty)
  | record (fields : List (String × Ty))
  | exception (fields : List (String × Ty))
  | named (name : String)

namespace Ty

/-- A bit vector type whose width is a type parameter. -/
def bitsOf (parameter : String) : Ty := .bits (.var parameter)

/-- A width is printed only if it is a variable or a constant. -/
def printWidth : Expr → String
  | .var name => name
  | .literal literal => literal.print
  | _ => "-"

mutual

def print : Ty → String
  | integer => "integer"
  | boolean => "boolean"
  | bits width => "bits(" ++ printWidth width ++ ")"
  | string => "string"
  | tuple items => "(" ++ printItems items ++ ")"
  | record fields => "record \x7b " ++ printFields fields ++ " \x7d"
  | exception fields => "exception \x7b " ++ printFields fields ++ " \x7d"
  | named name => name

def printItems : List Ty → String
  | [] => ""
  | [ty] => print ty
  | ty :: rest => print ty ++ ", " ++ printItems rest

def printFields : List (String × Ty) → String
  | [] => ""
  | [(name, ty)] => name ++ ": " ++ print ty
  | (name, ty) :: rest => name ++ ": " ++ print ty ++ ", " ++ printFields rest

end

end Ty

end ArchSpec
