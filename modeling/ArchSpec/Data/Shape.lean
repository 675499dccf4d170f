/-!
# Shapes

A shape describes the values that an operation accepts.  A mismatch names the
acceptable shapes in words.
-/

namespace ArchSpec

/-- What a value may look like; either end of a range may be open, and a bit
vector may be of any width. -/
inductive Shape where
  | integer
  | range (low high : Option Int)
  | boolean
  | bits (width : Option Nat)
  | string
  | tuple
  | record
  | exception
deriving DecidableEq

namespace Shape

/-- Integers from zero up. -/
def natural : Shape := .range (some 0) none

/-- An end of a range; an open end is left blank. -/
def printEnd : Option Int → String
  | some n => toString n
  | none => ""

def print : Shape → String
  | integer => "integer"
  | range low high =>
      "integer \x7b" ++ printEnd low ++ ".." ++ printEnd high ++ "\x7d"
  | boolean => "boolean"
  | bits (some width) => "bits(" ++ toString width ++ ")"
  | bits none => "bits(-)"
  | string => "string"
  | tuple => "tuple"
  | record => "record"
  | exception => "exception"

def printAll (shapes : List Shape) : String :=
  String.intercalate " or " (shapes.map print)

end Shape

end ArchSpec
