import ArchSpec.Data.Bits
import ArchSpec.Data.Fault
import ArchSpec.Data.Named
import ArchSpec.Text.Quoted

/-!
# Values

A value is an integer, a boolean, a bit vector, a string, or a tuple, record
or exception made of values.  Records and exceptions are built through
`makeRecord` and `makeException`, which refuse a field name that occurs twice.
Views such as `asInt` fail with the shape they wanted.
-/

namespace ArchSpec

inductive Value where
  | int (n : Int)
  | bool (b : Bool)
  | bits (b : Bits)
  | str (text : String)
  | tuple (items : List Value)
  | record (fields : List (String × Value))
  | exception (name : String) (fields : List (String × Value))

namespace Value

mutual

def print : Value → String
  | int n => toString n
  | bool b => if b then "TRUE" else "FALSE"
  | bits b => b.print
  | str text => Text.quote text
  | tuple items => "(" ++ printItems items ++ ")"
  | record fields => "\x7b " ++ printFields fields ++ " \x7d"
  | exception name fields => name ++ " \x7b " ++ printFields fields ++ " \x7d"

def printItems : List Value → String
  | [] => ""
  | [value] => print value
  | value :: rest => print value ++ ", " ++ printItems rest

def printFields : List (String × Value) → String
  | [] => ""
  | [(name, value)] => name ++ " = " ++ print value
  | (name, value) :: rest =>
      name ++ " = " ++ print value ++ ", " ++ printFields rest

end

def shape : Value → Shape
  | int _ => .integer
  | bool _ => .boolean
  | bits b => .bits (some b.width)
  | str _ => .string
  | tuple _ => .tuple
  | record _ => .record
  | exception .. => .exception

/-- The fault of a value that has none of the expected shapes. -/
def mismatch (value : Value) (expected : List Shape) : Fault :=
  .typeMismatch value.print expected

/-- The first field name that occurs twice is refused. -/
def checkDistinct (fields : Named Value) : Except Fault Unit :=
  match Named.repeats fields.names with
  | name :: _ => .error (.duplicateField name)
  | [] => .ok ()

def makeRecord (fields : Named Value) : Except Fault Value := do
  checkDistinct fields
  return record fields

def makeException (name : String) (fields : Named Value) : Except Fault Value := do
  checkDistinct fields
  return exception name fields

def asInt : Value → Except Fault Int
  | int n => .ok n
  | value => .error (value.mismatch [.integer])

def asBool : Value → Except Fault Bool
  | bool b => .ok b
  | value => .error (value.mismatch [.boolean])

def asString : Value → Except Fault String
  | str text => .ok text
  | value => .error (value.mismatch [.string])

/-- The bit vector itself; an integer is not widened. -/
def asBits : Value → Except Fault Bits
  | bits b => .ok b
  | value => .error (value.mismatch [.bits none])

/-- The integer as a width or position. -/
def asSize (value : Value) : Except Fault Nat := do
  match Size.ofInt? (← value.asInt) with
  | some size => return size
  | none => throw (value.mismatch [.natural])

theorem asSize_int (n : Int) :
    (int n).asSize = match Size.ofInt? n with
      | some size => .ok size
      | none => .error ((int n).mismatch [.natural]) := rfl

/-- The integer if it fits 64 bits with a sign. -/
def toInt64? : Value → Option Int
  | int n => if -(pow2 63 : Int) ≤ n ∧ n < pow2 63 then some n else none
  | _ => none

/-- A bit vector, or an integer widened so that `hint` bits are there. -/
def toBits (value : Value) (hint : Nat) : Except Fault Bits :=
  match value with
  | bits b => .ok b
  | int n => .ok (Bits.ofInt (Bits.inferredWidth n hint) n)
  | _ => .error (value.mismatch [.bits none, .integer])

/-- A bit vector of exactly `width` bits; an integer must fit. -/
def toBitsExact (value : Value) (width : Nat) : Except Fault Bits := do
  let b ← value.toBits width
  if b.width = width then return b
  else throw (value.mismatch [.bits (some width)])

/-- The zero vector whose width is the value. -/
def zeros (value : Value) : Except Fault Value := do
  return bits (Bits.zeros (← value.asSize))

def getItem (value : Value) (index : Nat) : Except Fault Value :=
  match value with
  | tuple items =>
      match items[index]? with
      | some item => .ok item
      | none => .error (.badIndex index value.print)
  | _ => .error (value.mismatch [.tuple])

def setItem (value : Value) (index : Nat) (item : Value) : Except Fault Value :=
  match value with
  | tuple items =>
      if index < items.length then .ok (tuple (items.set index item))
      else .error (.badIndex index value.print)
  | _ => .error (value.mismatch [.tuple])

def getField (value : Value) (field : String) : Except Fault Value :=
  match value with
  | record fields | exception _ fields =>
      match Named.get? fields field with
      | some item => .ok item
      | none => .error (.badField field value.print)
  | _ => .error (value.mismatch [.record, .exception])

def setField (value : Value) (field : String) (item : Value) : Except Fault Value :=
  match value with
  | record fields =>
      match Named.replace? fields field item with
      | some fields => .ok (record fields)
      | none => .error (.badField field value.print)
  | exception name fields =>
      match Named.replace? fields field item with
      | some fields => .ok (exception name fields)
      | none => .error (.badField field value.print)
  | _ => .error (value.mismatch [.record, .exception])

def exceptionName : Value → Except Fault String
  | exception name _ => .ok name
  | value => .error (value.mismatch [.exception])

end Value

end ArchSpec
