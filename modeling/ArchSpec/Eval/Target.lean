import ArchSpec.Eval.Expr
import ArchSpec.Program.Stmt

/-!
# Reading and assigning targets

Assigning to a part of a place reads the place, puts the part into the value
and assigns the place; only a variable is finally written.  The slices of a
target are evaluated before the place that they cut, whenever the place is
read and whenever it is assigned.
-/

namespace ArchSpec

open Eval

def Target.read (calls : Calls) : Target → Eval Value
  | .discard => Effect.fault (.staticCheck "cannot read from a discarded location")
  | .var name => readVariable name
  | .field whole name => do
      let value ← whole.read calls
      Effect.lift (value.getField name)
  | .item whole index => do
      let value ← whole.read calls
      Effect.lift (value.getItem index.toNat)
  | .slice whole slices => do
      let positions ← SliceExpr.evalAll calls slices
      let value ← whole.read calls
      Effect.liftSized (Slice.read positions value)

def Target.assign (calls : Calls) : Target → Value → Eval Unit
  | .discard, _ => return ()
  | .var name, value => writeVariable name value
  | .field whole name, value => do
      let container ← whole.read calls
      let updated ← Effect.lift (container.setField name value)
      whole.assign calls updated
  | .item whole index, value => do
      let container ← whole.read calls
      let updated ← Effect.lift (container.setItem index.toNat value)
      whole.assign calls updated
  | .slice whole slices, value => do
      let positions ← SliceExpr.evalAll calls slices
      let container ← whole.read calls
      let updated ← Effect.lift (Slice.write positions value container)
      whole.assign calls updated

end ArchSpec
