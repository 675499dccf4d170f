import ArchSpec.Check.Finding
import ArchSpec.Eval.Stmt
import ArchSpec.Program.Primitive

/-!
# Calls

A call runs a subprogram in a frame of its own, with the arguments as its
parameters.  A primitive needs no frame and checks its arguments itself.  Calls
may recurse without end, so their meaning is given for each bound on the depth
of calls; the same bound limits the rounds of a loop.
-/

namespace ArchSpec

namespace Eval

/-- A call of the primitive with a name. -/
def callPrimitive (name : String) (values : List Value) : Eval (List Value) :=
  match Primitive.ofName? name with
  | none => Effect.fault (.undefinedIdentifier name)
  | some primitive => do
      let reply ← Effect.lift (primitive.call values)
      Effect.modify (State.print reply.printed)
      return reply.results

/-- Binds the parameters of a subprogram to the arguments. -/
def bindParameters : List (String × Ty) → List Value → Eval Unit
  | (name, _) :: args, value :: values => do
      declareLocal name value
      bindParameters args values
  | _, _ => return ()

/-- The results with which a body ends. -/
def results : Flow → List Value
  | .next => []
  | .returned none => []
  | .returned (some value) => [value]

/-- Runs a body with its parameters bound in a frame of its own. -/
def inFrame (name : String) (args : List (String × Ty)) (values : List Value)
    (body : Eval Flow) : Eval (List Value) := do
  let flow ← inActivation name do
    bindParameters args values
    body
  return results flow

/-- The meaning of one call, given the meaning of everything in its body.  Who
calls makes no difference. -/
def call (subprograms : String → Option Subprogram) (context : Context) : Calls :=
  fun _ name values =>
    match subprograms name with
    | none => Effect.fault (.undefinedIdentifier name)
    | some decl =>
        match decl.body with
        | .primitive primitive => callPrimitive primitive values
        | .stmt body =>
            if decl.args.length = values.length then
              inFrame name decl.args values (body.exec context)
            else Effect.fault (.badArity name decl.args.length values.length)

/-- The meaning of calls that nest at most `bound` deep. -/
def callWithin (subprograms : String → Option Subprogram) (unroll : Nat) : Nat → Calls
  | 0 => fun _ _ _ => Effect.exhaust
  | bound + 1 => call subprograms ⟨callWithin subprograms unroll bound, bound, unroll⟩

end Eval

/-- What calls mean, given the subprograms that there are and the rounds before
a loop warns. -/
abbrev Calling := Table → Nat → Calls

/-- Calls that nest at most `bound` deep. -/
def Calling.within (bound : Nat) : Calling := fun subprograms unroll =>
  Eval.callWithin (Named.get? subprograms) unroll bound

end ArchSpec
