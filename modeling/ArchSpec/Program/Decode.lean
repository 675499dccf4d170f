import ArchSpec.Json.Read
import ArchSpec.Program.Encode

/-!
# Reading programs from JSON

The inverse of the encoding; it also accepts the other forms of an object or a
choice that decoders accept.  A text may nest at most 127 arrays and objects
deep.  The recursive decoders take a bound on the nesting of syntax, which the
bound on the nesting of JSON covers.
-/

namespace ArchSpec

open Json (Decoder Form)
open Json.Decoder

def Literal.decoder : Decoder Literal :=
  choice fun tag given level =>
    match tag with
    | "Int" => (content integer given level).map .int
    | "Bool" => (content flag given level).map .bool
    | "Bits" => (content text given level).map .bits
    | "String" => (content text given level).map .str
    | _ => none

def BinaryOp.decoder : Decoder BinaryOp := Json.Decoder.name BinaryOp.all BinaryOp.name

def UnaryOp.decoder : Decoder UnaryOp := Json.Decoder.name UnaryOp.all UnaryOp.name

def SubprogramKind.decoder : Decoder SubprogramKind :=
  Json.Decoder.name [.function, .procedure] SubprogramKind.name

mutual

def Expr.decoder (form : Form) : Nat → Decoder Expr
  | 0, _, _ => none
  | fuel + 1, level, json =>
      choice (fun tag given level =>
        match tag with
        | "Literal" => (content Literal.decoder given level).map .literal
        | "Var" => (content text given level).map .var
        | "Binop" => do
            let parts ← content (caseFields form ["op", "left", "right"]) given level
            return .binary (← parts.required "op" BinaryOp.decoder)
              (← parts.required "left" (Expr.decoder form fuel))
              (← parts.required "right" (Expr.decoder form fuel))
        | "Unop" => do
            let parts ← content (caseFields form ["op", "expr"]) given level
            return .unary (← parts.required "op" UnaryOp.decoder)
              (← parts.required "expr" (Expr.decoder form fuel))
        | "Call" => do
            let parts ← content (caseFields form ["func", "args"]) given level
            return .call (← parts.required "func" text)
              (← parts.required "args" (list (Expr.decoder form fuel)))
        | "Slice" => do
            let parts ← content (caseFields form ["expr", "slices"]) given level
            return .slice (← parts.required "expr" (Expr.decoder form fuel))
              (← parts.required "slices" (list (SliceExpr.decoder form fuel)))
        | "Concat" =>
            (content (list (Expr.decoder form fuel)) given level).map .concat
        | "Cond" => do
            let parts ← content (caseFields form ["cond", "yes", "no"]) given level
            return .cond (← parts.required "cond" (Expr.decoder form fuel))
              (← parts.required "yes" (Expr.decoder form fuel))
              (← parts.required "no" (Expr.decoder form fuel))
        | "Tuple" =>
            (content (list (Expr.decoder form fuel)) given level).map .tuple
        | "GetItem" => do
            let parts ← content (caseFields form ["expr", "index"]) given level
            return .item (← parts.required "expr" (Expr.decoder form fuel))
              (← parts.required "index" size)
        | "Record" =>
            (content (list (pair text (Expr.decoder form fuel))) given level).map
              .record
        | "GetField" => do
            let parts ← content (caseFields form ["expr", "field"]) given level
            return .field (← parts.required "expr" (Expr.decoder form fuel))
              (← parts.required "field" text)
        | "Exception" => do
            let parts ← content (caseFields form ["name", "fields"]) given level
            return .exception (← parts.required "name" text)
              (← parts.required "fields" (list (pair text (Expr.decoder form fuel))))
        | _ => none) level json

def SliceExpr.decoder (form : Form) : Nat → Decoder SliceExpr
  | 0, _, _ => none
  | fuel + 1, level, json =>
      choice (fun tag given level =>
        match tag with
        | "Single" => (content (Expr.decoder form fuel) given level).map .single
        | "Range" => do
            let (high, low) ← content
              (pair (Expr.decoder form fuel) (Expr.decoder form fuel)) given level
            return .range high low
        | "Length" => do
            let (start, length) ← content
              (pair (Expr.decoder form fuel) (Expr.decoder form fuel)) given level
            return .length start length
        | _ => none) level json

end

/-- An expression; its syntax nests no deeper than the JSON may. -/
def Expr.decode (form : Form) : Decoder Expr := fun level json =>
  Expr.decoder form level level json

def SliceExpr.decode (form : Form) : Decoder SliceExpr := fun level json =>
  SliceExpr.decoder form level level json

def Ty.decoder (form : Form) : Nat → Decoder Ty
  | 0, _, _ => none
  | fuel + 1, level, json =>
      choice (fun tag given level =>
        match tag with
        | "Integer" => empty .integer given
        | "Boolean" => empty .boolean given
        | "Bits" => (content (Expr.decode form) given level).map .bits
        | "String" => empty .string given
        | "Tuple" => (content (list (Ty.decoder form fuel)) given level).map .tuple
        | "Record" =>
            (content (list (pair text (Ty.decoder form fuel))) given level).map .record
        | "Exception" =>
            (content (list (pair text (Ty.decoder form fuel))) given level).map
              .exception
        | "Named" => (content text given level).map .named
        | _ => none) level json

/-- A type; one without parts needs no depth. -/
def Ty.decode (form : Form) : Decoder Ty := fun level json =>
  Ty.decoder form (level + 1) level json

def Target.decoder (form : Form) : Nat → Decoder Target
  | 0, _, _ => none
  | fuel + 1, level, json =>
      choice (fun tag given level =>
        match tag with
        | "Discard" => empty .discard given
        | "Var" => (content text given level).map .var
        | "Slice" => do
            let (whole, slices) ← content
              (pair (Target.decoder form fuel) (list (SliceExpr.decode form)))
              given level
            return .slice whole slices
        | "Field" => do
            let (whole, name) ← content (pair (Target.decoder form fuel) text)
              given level
            return .field whole name
        | "Item" => do
            let (whole, index) ← content (pair (Target.decoder form fuel) size)
              given level
            return .item whole index
        | _ => none) level json

/-- A target; the discarding one needs no depth. -/
def Target.decode (form : Form) : Decoder Target := fun level json =>
  Target.decoder form (level + 1) level json

mutual

def Stmt.decoder (form : Form) : Nat → Decoder Stmt
  | 0, _, _ => none
  | fuel + 1, level, json =>
      choice (fun tag given level =>
        match tag with
        | "Pass" => empty .pass given
        | "Seq" => (content (list (Stmt.decoder form fuel)) given level).map .block
        | "Decl" => do
            let parts ← content (caseFields form ["name", "ty", "init"]) given level
            return .declare (← parts.required "name" text)
              (← parts.optional "ty" (Ty.decode form))
              (← parts.optional "init" (Expr.decode form))
        | "Assign" => do
            let (target, value) ← content
              (pair (Target.decode form) (Expr.decode form)) given level
            return .assign target value
        | "Call" => do
            let parts ← content (caseFields form ["func", "args"]) given level
            return .call (← parts.required "func" text)
              (← parts.required "args" (list (Expr.decode form)))
        | "Return" =>
            (content (Json.Decoder.optional (Expr.decode form)) given level).map .ret
        | "If" => do
            let parts ← content
              (caseFields form ["cond", "then_branch", "else_branch"]) given level
            return .branch (← parts.required "cond" (Expr.decode form))
              (← parts.required "then_branch" (Stmt.decoder form fuel))
              (← parts.required "else_branch" (Stmt.decoder form fuel))
        | "For" => do
            let parts ← content
              (caseFields form ["index", "start", "end", "downto", "body"]) given level
            return .count (← parts.required "index" text)
              (← parts.required "start" (Expr.decode form))
              (← parts.required "end" (Expr.decode form))
              (← parts.required "downto" flag)
              (← parts.required "body" (Stmt.decoder form fuel))
        | "While" => do
            let parts ← content (caseFields form ["cond", "body"]) given level
            return .loop (← parts.required "cond" (Expr.decode form))
              (← parts.required "body" (Stmt.decoder form fuel))
        | "Assert" => (content (Expr.decode form) given level).map .assert
        | "Throw" =>
            (content (Json.Decoder.optional (Expr.decode form)) given level).map .raise
        | "Try" => do
            let parts ← content
              (caseFields form ["body", "catchers", "otherwise"]) given level
            return .attempt (← parts.required "body" (Stmt.decoder form fuel))
              (← parts.required "catchers" (list (Catcher.decoder form fuel)))
              (← parts.optional "otherwise" (Stmt.decoder form fuel))
        | _ => none) level json

def Catcher.decoder (form : Form) : Nat → Decoder Catcher
  | 0, _, _ => none
  | fuel + 1, level, json => do
      let parts ← object ["binding", "exception", "body"] level json
      return .mk (← parts.optional "binding" text)
        (← parts.required "exception" text)
        (← parts.required "body" (Stmt.decoder form fuel))

end

/-- A statement; one without parts needs no depth. -/
def Stmt.decode (form : Form) : Decoder Stmt := fun level json =>
  Stmt.decoder form (level + 1) level json

def Body.decode (form : Form) : Decoder Body :=
  choice fun tag given level =>
    match tag with
    | "Stmts" => (content (Stmt.decode form) given level).map .stmt
    | "Primitive" => (content text given level).map .primitive
    | _ => none

def Subprogram.decode (form : Form) : Decoder Subprogram := fun level json => do
  let parts ← object ["name", "parameters", "args", "return_type", "body", "kind"]
    level json
  return {
    name := ← parts.required "name" text
    parameters := ← parts.required "parameters" (list text)
    args := ← parts.required "args" (list (pair text (Ty.decode form)))
    returns := ← parts.optional "return_type" (Ty.decode form)
    body := ← parts.required "body" (Body.decode form)
    kind := ← parts.required "kind" SubprogramKind.decoder }

def Global.decode (form : Form) : Decoder Global := fun level json => do
  let parts ← object ["name", "ty", "init"] level json
  return {
    name := ← parts.required "name" text
    ty := ← parts.optional "ty" (Ty.decode form)
    init := ← parts.optional "init" (Expr.decode form) }

def Decl.decode (form : Form) : Decoder Decl :=
  choice fun tag given level =>
    match tag with
    | "Func" => (content (Subprogram.decode form) given level).map .subprogram
    | "Global" => (content (Global.decode form) given level).map .global
    | _ => none

def Program.decode (form : Form) : Decoder Program := fun level json => do
  let parts ← object ["decls"] level json
  return ⟨← parts.required "decls" (list (Decl.decode form))⟩

/-- How deep arrays and objects may nest in a text. -/
def Json.textDepth : Nat := 127

/-- What a decoder reads from a tree of any depth. -/
def Json.decodeTree {α : Type} (decode : Form → Decoder α) (json : Json) : Option α :=
  decode .tree json.depth json

def Json.decodeText {α : Type} (decode : Form → Decoder α) (text : String) :
    Option α := do
  decode .text textDepth (← Json.ofString? text)

def Program.ofJson? (json : Json) : Option Program := Json.decodeTree Program.decode json

def Program.ofText? (text : String) : Option Program := Json.decodeText Program.decode text

end ArchSpec
