import ArchSpec.Program.Stmt

/-!
# Declarations

A program is a list of declarations.  The body of a subprogram is a statement
or the name of a primitive.
-/

namespace ArchSpec

/-- A function returns exactly one value, a procedure none. -/
inductive SubprogramKind where
  | function
  | procedure
deriving DecidableEq

inductive Body where
  | stmt (body : Stmt)
  | primitive (name : String)

structure Subprogram where
  name : String
  /-- Type parameters, such as the width of a bit vector argument. -/
  parameters : List String
  args : List (String × Ty)
  returns : Option Ty
  body : Body
  kind : SubprogramKind

structure Global where
  name : String
  ty : Option Ty
  init : Option Expr

inductive Decl where
  | subprogram (decl : Subprogram)
  | global (decl : Global)

/-- A program is its declarations in order. -/
structure Program where
  decls : List Decl

namespace Subprogram

def isPrimitive (decl : Subprogram) : Bool :=
  match decl.body with
  | .primitive _ => true
  | .stmt _ => false

/-- A function without type parameters whose body is a statement. -/
def ofFunction (name : String) (args : List (String × Ty)) (returns : Ty)
    (body : Stmt) : Subprogram :=
  ⟨name, [], args, some returns, .stmt body, .function⟩

/-- A procedure without type parameters whose body is a statement. -/
def ofProcedure (name : String) (args : List (String × Ty)) (body : Stmt) :
    Subprogram :=
  ⟨name, [], args, none, .stmt body, .procedure⟩

end Subprogram

namespace Program

def subprograms (program : Program) : List Subprogram :=
  program.decls.filterMap fun
    | .subprogram decl => some decl
    | .global _ => none

def globals (program : Program) : List Global :=
  program.decls.filterMap fun
    | .global decl => some decl
    | .subprogram _ => none

end Program

end ArchSpec
