import ArchSpec.Program.Decl

/-!
# Primitives

Primitives are subprograms whose body is not a statement.  Each one checks the
number of its arguments before it looks at them.  A reply carries the results
and the text that the call prints.
-/

namespace ArchSpec

inductive Primitive where
  | uint
  | sint
  | decStr
  | hexStr
  | asciiStr
  | log2
  | print
deriving DecidableEq

namespace Primitive

structure Reply where
  results : List Value
  printed : String

def all : List Primitive := [uint, sint, decStr, hexStr, asciiStr, log2, print]

def name : Primitive → String
  | uint => "UInt"
  | sint => "SInt"
  | decStr => "DecStr"
  | hexStr => "HexStr"
  | asciiStr => "AsciiStr"
  | log2 => "Log2"
  | print => "print"

def ofName? (name : String) : Option Primitive :=
  all.find? fun primitive => primitive.name = name

def parameters : Primitive → List String
  | uint | sint => ["N"]
  | _ => []

def args : Primitive → List (String × Ty)
  | uint | sint => [("x", .bitsOf "N")]
  | decStr | hexStr | asciiStr | log2 => [("x", .integer)]
  | print => [("s1", .string), ("s2", .string), ("s3", .string), ("s4", .string)]

def returns : Primitive → Option Ty
  | uint | sint | log2 => some .integer
  | decStr | hexStr | asciiStr => some .string
  | print => none

/-- The declaration through which programs call the primitive. -/
def declaration (primitive : Primitive) : Subprogram where
  name := primitive.name
  parameters := primitive.parameters
  args := primitive.args
  returns := primitive.returns
  body := .primitive primitive.name
  kind := if primitive.returns.isSome then .function else .procedure

def declarations : List Decl := all.map fun primitive => .subprogram primitive.declaration

/-- Lower-case hexadecimal with a leading sign. -/
def hex : Int → String
  | .ofNat n => Text.hexDigits n
  | .negSucc n => "-" ++ Text.hexDigits (n + 1)

def ascii (value : Value) : Except Fault Value := do
  let n ← value.asInt
  if 0 ≤ n ∧ n ≤ 127 then return .str (String.singleton (Char.ofNat n.toNat))
  else throw (value.mismatch [.range (some 0) (some 127)])

def logarithm (value : Value) : Except Fault Value := do
  let n ← value.asInt
  if 1 ≤ n then return .int n.toNat.log2
  else throw (value.mismatch [.range (some 1) none])

def printLimit : Nat := 4

def strings : List Value → Except Fault (List String)
  | [] => .ok []
  | value :: rest => do
      let first ← value.asString
      let others ← strings rest
      return first :: others

/-- The line that `print` writes: the strings with spaces between them. -/
def line (values : List Value) : Except Fault String := do
  if printLimit < values.length then
    throw (.badArity print.name printLimit values.length)
  return String.intercalate " " (← strings values) ++ "\n"

/-- A call that takes one argument and gives one result. -/
def onOne (primitive : Primitive) (values : List Value)
    (compute : Value → Except Fault Value) : Except Fault Reply :=
  match values with
  | [value] => do return ⟨[← compute value], ""⟩
  | _ => .error (.badArity primitive.name 1 values.length)

def call (primitive : Primitive) (values : List Value) : Except Fault Reply :=
  match primitive with
  | uint => primitive.onOne values fun value => do
      return .int (← value.asBits).unsigned
  | sint => primitive.onOne values fun value => do
      return .int (← value.asBits).signed
  | decStr => primitive.onOne values fun value => do
      return .str (toString (← value.asInt))
  | hexStr => primitive.onOne values fun value => do
      return .str (hex (← value.asInt))
  | asciiStr => primitive.onOne values ascii
  | log2 => primitive.onOne values logarithm
  | print => do return ⟨[], ← line values⟩

end Primitive

namespace Program

def withPrimitives (program : Program) : Program :=
  ⟨Primitive.declarations ++ program.decls⟩

end Program

end ArchSpec
