/-!
# Scopes

A scope says where a variable lives: in global storage, or in one activation
of a subprogram.  The activations of a subprogram are numbered with 32-bit
words, so that a recursive call never shares a scope with its caller.
-/

namespace ArchSpec

inductive Scope where
  /-- Global storage; `initialising` while global initialisers run. -/
  | global (initialising : Bool)
  | activation (subprogram : String) (number : UInt32)
deriving DecidableEq

namespace Scope

/-- Global storage comes first, then activations by subprogram and number. -/
def compare : Scope → Scope → Ordering
  | global left, global right => Ord.compare left right
  | global _, activation .. => .lt
  | activation .., global _ => .gt
  | activation leftName left, activation rightName right =>
      (Ord.compare leftName rightName).then (Ord.compare left right)

def print : Scope → String
  | global true => "global(init)"
  | global false => "global"
  | activation subprogram number => subprogram ++ "#" ++ toString number

end Scope

end ArchSpec
