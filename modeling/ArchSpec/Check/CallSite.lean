import ArchSpec.Program.Decl

/-!
# Call sites

Every call that a program contains, with the declaration it stands in, in the
order of the text: bodies before argument types, initialisers before the types
of globals, the outer call before those in its arguments.  Result types are
not visited.
-/

namespace ArchSpec

structure Call where
  callee : String
  argCount : Nat
  /-- The call stands in an expression and not as a statement. -/
  forValue : Bool
deriving DecidableEq

mutual

def Expr.calls : Expr → List Call
  | .literal _ => []
  | .var _ => []
  | .binary _ left right => left.calls ++ right.calls
  | .unary _ operand => operand.calls
  | .call callee args => ⟨callee, args.length, true⟩ :: Expr.allCalls args
  | .slice source slices => source.calls ++ SliceExpr.allCalls slices
  | .concat items => Expr.allCalls items
  | .cond test yes no => test.calls ++ yes.calls ++ no.calls
  | .tuple items => Expr.allCalls items
  | .item source _ => source.calls
  | .record fields => Expr.fieldsCalls fields
  | .field source _ => source.calls
  | .exception _ fields => Expr.fieldsCalls fields

def Expr.allCalls : List Expr → List Call
  | [] => []
  | first :: rest => first.calls ++ Expr.allCalls rest

def Expr.fieldsCalls : List (String × Expr) → List Call
  | [] => []
  | (_, first) :: rest => first.calls ++ Expr.fieldsCalls rest

def SliceExpr.calls : SliceExpr → List Call
  | .single index => index.calls
  | .range high low => high.calls ++ low.calls
  | .length start length => start.calls ++ length.calls

def SliceExpr.allCalls : List SliceExpr → List Call
  | [] => []
  | first :: rest => first.calls ++ SliceExpr.allCalls rest

end

def Expr.callsOf? (expr : Option Expr) : List Call :=
  match expr with
  | some expr => expr.calls
  | none => []

mutual

/-- The calls in the widths of a type. -/
def Ty.calls : Ty → List Call
  | .integer => []
  | .boolean => []
  | .bits width => width.calls
  | .string => []
  | .tuple items => Ty.allCalls items
  | .record fields => Ty.fieldsCalls fields
  | .exception fields => Ty.fieldsCalls fields
  | .named _ => []

def Ty.allCalls : List Ty → List Call
  | [] => []
  | first :: rest => first.calls ++ Ty.allCalls rest

def Ty.fieldsCalls : List (String × Ty) → List Call
  | [] => []
  | (_, first) :: rest => first.calls ++ Ty.fieldsCalls rest

end

def Ty.callsOf? (ty : Option Ty) : List Call :=
  match ty with
  | some ty => ty.calls
  | none => []

/-- The calls in the slices of a target. -/
def Target.calls : Target → List Call
  | .discard => []
  | .var _ => []
  | .slice whole slices => whole.calls ++ SliceExpr.allCalls slices
  | .field whole _ => whole.calls
  | .item whole _ => whole.calls

mutual

def Stmt.calls : Stmt → List Call
  | .pass => []
  | .block stmts => Stmt.allCalls stmts
  | .declare _ ty init => Ty.callsOf? ty ++ Expr.callsOf? init
  | .assign target value => target.calls ++ value.calls
  | .call callee args => ⟨callee, args.length, false⟩ :: Expr.allCalls args
  | .ret value => Expr.callsOf? value
  | .branch test yes no => test.calls ++ yes.calls ++ no.calls
  | .count _ first last _ body => first.calls ++ last.calls ++ body.calls
  | .loop test body => test.calls ++ body.calls
  | .assert test => test.calls
  | .raise exc => Expr.callsOf? exc
  | .attempt body catchers none => body.calls ++ Catcher.allCalls catchers
  | .attempt body catchers (some otherwise) =>
      body.calls ++ Catcher.allCalls catchers ++ otherwise.calls

def Stmt.allCalls : List Stmt → List Call
  | [] => []
  | first :: rest => first.calls ++ Stmt.allCalls rest

def Catcher.allCalls : List Catcher → List Call
  | [] => []
  | .mk _ _ body :: rest => body.calls ++ Catcher.allCalls rest

end

/-- The calls that a subprogram checks before it runs. -/
def Subprogram.calls (decl : Subprogram) : List Call :=
  (match decl.body with
    | .stmt body => body.calls
    | .primitive _ => []) ++ decl.args.flatMap fun arg => arg.2.calls

def Global.calls (decl : Global) : List Call :=
  Expr.callsOf? decl.init ++ Ty.callsOf? decl.ty

/-- A call with the name of the declaration that it stands in. -/
structure CallSite where
  caller : String
  call : Call
deriving DecidableEq

def Decl.callSites : Decl → List CallSite
  | .subprogram decl => decl.calls.map (⟨decl.name, ·⟩)
  | .global decl => decl.calls.map (⟨decl.name, ·⟩)

def Program.callSites (program : Program) : List CallSite :=
  program.decls.flatMap Decl.callSites

end ArchSpec
