import ArchSpec.Json.Integer
import ArchSpec.Program.Decl

/-!
# Programs as JSON

Every choice is an object with one entry named for the case, or the name alone
if the case has no content.  The fields of a case with several named parts are
an object; unnamed parts are a list.  What is missing is null.
-/

namespace ArchSpec

open Json (ofOption)

/-- A choice with content. -/
def Json.tagged (tag : String) (content : Json) : Json := .obj [(tag, content)]

def BinaryOp.name : BinaryOp → String
  | add => "Add"
  | sub => "Sub"
  | mul => "Mul"
  | div => "Div"
  | divRm => "DivRm"
  | mod => "Mod"
  | pow => "Pow"
  | shl => "Shl"
  | shr => "Shr"
  | eq => "Eq"
  | ne => "Ne"
  | lt => "Lt"
  | gt => "Gt"
  | le => "Le"
  | ge => "Ge"
  | and => "And"
  | or => "Or"
  | impl => "Impl"
  | equiv => "Equiv"
  | bitAnd => "BitAnd"
  | bitOr => "BitOr"
  | bitXor => "BitXor"

def UnaryOp.name : UnaryOp → String
  | neg => "Neg"
  | not => "Not"
  | bitNot => "BitNot"

def SubprogramKind.name : SubprogramKind → String
  | function => "Function"
  | procedure => "Procedure"

def Literal.encode : Literal → Json
  | int n => .tagged "Int" (.ofInteger n)
  | bool b => .tagged "Bool" (.bool b)
  | bits digits => .tagged "Bits" (.str digits)
  | str text => .tagged "String" (.str text)

mutual

def Expr.encode : Expr → Json
  | .literal value => .tagged "Literal" value.encode
  | .var name => .tagged "Var" (.str name)
  | .binary op left right => .tagged "Binop"
      (.obj [("op", .str op.name), ("left", left.encode), ("right", right.encode)])
  | .unary op operand => .tagged "Unop"
      (.obj [("op", .str op.name), ("expr", operand.encode)])
  | .call callee args => .tagged "Call"
      (.obj [("func", .str callee), ("args", .arr (Expr.encodeAll args))])
  | .slice source slices => .tagged "Slice"
      (.obj [("expr", source.encode), ("slices", .arr (SliceExpr.encodeAll slices))])
  | .concat items => .tagged "Concat" (.arr (Expr.encodeAll items))
  | .cond test yes no => .tagged "Cond"
      (.obj [("cond", test.encode), ("yes", yes.encode), ("no", no.encode)])
  | .tuple items => .tagged "Tuple" (.arr (Expr.encodeAll items))
  | .item source index => .tagged "GetItem"
      (.obj [("expr", source.encode), ("index", .nat index.toNat)])
  | .record fields => .tagged "Record" (.arr (Expr.encodeFields fields))
  | .field source name => .tagged "GetField"
      (.obj [("expr", source.encode), ("field", .str name)])
  | .exception name fields => .tagged "Exception"
      (.obj [("name", .str name), ("fields", .arr (Expr.encodeFields fields))])

def Expr.encodeAll : List Expr → List Json
  | [] => []
  | first :: rest => first.encode :: Expr.encodeAll rest

def Expr.encodeFields : List (String × Expr) → List Json
  | [] => []
  | (name, first) :: rest =>
      .arr [.str name, first.encode] :: Expr.encodeFields rest

def SliceExpr.encode : SliceExpr → Json
  | .single index => .tagged "Single" index.encode
  | .range high low => .tagged "Range" (.arr [high.encode, low.encode])
  | .length start length => .tagged "Length" (.arr [start.encode, length.encode])

def SliceExpr.encodeAll : List SliceExpr → List Json
  | [] => []
  | first :: rest => first.encode :: SliceExpr.encodeAll rest

end

mutual

def Ty.encode : Ty → Json
  | .integer => .str "Integer"
  | .boolean => .str "Boolean"
  | .bits width => .tagged "Bits" width.encode
  | .string => .str "String"
  | .tuple items => .tagged "Tuple" (.arr (Ty.encodeAll items))
  | .record fields => .tagged "Record" (.arr (Ty.encodeFields fields))
  | .exception fields => .tagged "Exception" (.arr (Ty.encodeFields fields))
  | .named name => .tagged "Named" (.str name)

def Ty.encodeAll : List Ty → List Json
  | [] => []
  | first :: rest => first.encode :: Ty.encodeAll rest

def Ty.encodeFields : List (String × Ty) → List Json
  | [] => []
  | (name, first) :: rest =>
      .arr [.str name, first.encode] :: Ty.encodeFields rest

end

def Target.encode : Target → Json
  | .discard => .str "Discard"
  | .var name => .tagged "Var" (.str name)
  | .slice whole slices =>
      .tagged "Slice" (.arr [whole.encode, .arr (SliceExpr.encodeAll slices)])
  | .field whole name => .tagged "Field" (.arr [whole.encode, .str name])
  | .item whole index => .tagged "Item" (.arr [whole.encode, .nat index.toNat])

mutual

def Stmt.encode : Stmt → Json
  | .pass => .str "Pass"
  | .block stmts => .tagged "Seq" (.arr (Stmt.encodeAll stmts))
  | .declare name ty init => .tagged "Decl"
      (.obj [("name", .str name), ("ty", ofOption (ty.map Ty.encode)),
        ("init", ofOption (init.map Expr.encode))])
  | .assign target value => .tagged "Assign" (.arr [target.encode, value.encode])
  | .call callee args => .tagged "Call"
      (.obj [("func", .str callee), ("args", .arr (Expr.encodeAll args))])
  | .ret value => .tagged "Return" (ofOption (value.map Expr.encode))
  | .branch test yes no => .tagged "If"
      (.obj [("cond", test.encode), ("then_branch", yes.encode),
        ("else_branch", no.encode)])
  | .count index first last down body => .tagged "For"
      (.obj [("index", .str index), ("start", first.encode), ("end", last.encode),
        ("downto", .bool down), ("body", body.encode)])
  | .loop test body => .tagged "While"
      (.obj [("cond", test.encode), ("body", body.encode)])
  | .assert test => .tagged "Assert" test.encode
  | .raise exc => .tagged "Throw" (ofOption (exc.map Expr.encode))
  | .attempt body catchers none => .tagged "Try"
      (.obj [("body", body.encode), ("catchers", .arr (Catcher.encodeAll catchers)),
        ("otherwise", .null)])
  | .attempt body catchers (some otherwise) => .tagged "Try"
      (.obj [("body", body.encode), ("catchers", .arr (Catcher.encodeAll catchers)),
        ("otherwise", otherwise.encode)])

def Stmt.encodeAll : List Stmt → List Json
  | [] => []
  | first :: rest => first.encode :: Stmt.encodeAll rest

def Catcher.encodeAll : List Catcher → List Json
  | [] => []
  | .mk binding exception body :: rest =>
      .obj [("binding", ofOption (binding.map .str)), ("exception", .str exception),
        ("body", body.encode)] :: Catcher.encodeAll rest

end

def Body.encode : Body → Json
  | .stmt body => .tagged "Stmts" body.encode
  | .primitive name => .tagged "Primitive" (.str name)

def Subprogram.encode (decl : Subprogram) : Json :=
  .obj [("name", .str decl.name), ("parameters", .strings decl.parameters),
    ("args", .arr (Ty.encodeFields decl.args)),
    ("return_type", ofOption (decl.returns.map Ty.encode)),
    ("body", decl.body.encode), ("kind", .str decl.kind.name)]

def Global.encode (decl : Global) : Json :=
  .obj [("name", .str decl.name), ("ty", ofOption (decl.ty.map Ty.encode)),
    ("init", ofOption (decl.init.map Expr.encode))]

def Decl.encode : Decl → Json
  | .subprogram decl => .tagged "Func" decl.encode
  | .global decl => .tagged "Global" decl.encode

def Program.encode (program : Program) : Json :=
  .obj [("decls", .arr (program.decls.map Decl.encode))]

end ArchSpec
