import ArchSpec.Eval.Target

/-!
# Execution of statements

A statement ends normally or returns; exceptions travel as outcomes.  Blocks,
branches, loop rounds and handlers each run in a block of their own, which goes
when they end, return or throw.

A counted loop runs its body once for each index between its bounds.  The index
is bound anew in every round, so the body cannot steer the loop.  Both loops
count their finished rounds up to the largest 32-bit number, and a round that
starts when the count equals the unrolling bound raises a warning.
-/

namespace ArchSpec

/-- How a statement ends if it neither throws nor fails. -/
inductive Flow where
  | next
  | returned (value : Option Value)

/-- What a statement needs to know about its surroundings. -/
structure Context where
  calls : Calls
  /-- The most rounds that one loop may take. -/
  rounds : Nat
  /-- The rounds before a loop warns; zero means never. -/
  unroll : Nat

namespace Eval

/-- The largest number of finished rounds that a loop counts to. -/
def roundLimit : Nat := pow2 32 - 1

/-- The count of finished rounds after one more. -/
def countRound (finished : Nat) : Nat := min (finished + 1) roundLimit

/-- Warns when a round starts beyond the unrolling bound. -/
def checkUnroll (unroll finished : Nat) : Eval Unit :=
  if 0 < unroll ∧ finished = unroll then
    Effect.modify (State.warn ("loop exceeded the unrolling bound of " ++
      toString unroll ++ " iterations"))
  else return ()

/-- The two bounds of a counted loop, which have to be integers; other values
are refused as the comparison of the bounds refuses them. -/
def loopBounds (down : Bool) (first last : Value) : Except Fault (Int × Int) :=
  match first, last with
  | .int first, .int last => .ok (first, last)
  | first, last => .error ((if down then BinaryOp.ge else BinaryOp.le).blame first last)

/-- The number of rounds of a counted loop. -/
def roundCount (down : Bool) (first last : Int) : Nat :=
  (if down then first - last + 1 else last - first + 1).toNat

def countedRound (index : String) (current : Int) (body : Eval Flow) : Eval Flow :=
  inBlock do
    declareLocal index (.int current)
    body

/-- The remaining rounds of a counted loop. -/
def countedRounds (unroll : Nat) (down : Bool) (index : String) (body : Eval Flow) :
    Nat → Int → Nat → Eval Flow
  | 0, _, _, state => (.done .next, state)
  | left + 1, current, finished, state =>
      let round := do
        checkUnroll unroll finished
        countedRound index current body
      match round state with
      | (.done .next, state) =>
          countedRounds unroll down index body left
            (if down then current - 1 else current + 1) (countRound finished) state
      | other => other

def countedLoop (unroll : Nat) (down : Bool) (index : String) (first last : Value)
    (body : Eval Flow) : Eval Flow := do
  let (first, last) ← Effect.lift (loopBounds down first last)
  countedRounds unroll down index body (roundCount down first last) first 0

/-- One round of a tested loop: the number of finished rounds, or the end. -/
def testedRound (unroll : Nat) (test : Eval Value) (body : Eval Flow)
    (finished : Nat) : Eval (Nat ⊕ Flow) := do
  let value ← test
  Effect.select value
    (do
      checkUnroll unroll finished
      match ← inBlock body with
      | .next => return .inl (countRound finished)
      | .returned value => return .inr (.returned value))
    (return .inr .next)

/-- A loop that tests before every round. -/
def testedLoop (unroll rounds : Nat) (test : Eval Value) (body : Eval Flow) :
    Eval Flow :=
  Effect.iterate (testedRound unroll test body) rounds 0

def initialValue (calls : Calls) (what : String) (ty : Option Ty)
    (init : Option Expr) : Eval Value :=
  match init, ty with
  | some init, _ => init.eval calls
  | none, some ty => ty.default calls
  | none, none => Effect.fault (.staticCheck (what ++ " needs a type or an initialiser"))

/-- Throws a value, which has to be an exception. -/
def raise {α : Type} (exc : Value) : Eval α := do
  let _ ← Effect.lift exc.exceptionName
  Effect.throwing exc

/-- Throws the exception that is being handled once more. -/
def raiseAgain {α : Type} : Eval α := fun state =>
  match state.handled with
  | exc :: _ => (.thrown exc, state)
  | [] =>
      (.failed (.staticCheck "implicit rethrow outside of an exception handler"), state)

/-- Ends with a fault unless a value is true. -/
def assertion (test : Value) : Eval Flow :=
  Effect.select test (return .next) (Effect.fault .assertionFailed)

def bindCaught (binding : Option String) (exc : Value) : Eval Unit :=
  match binding with
  | some name => declareLocal name exc
  | none => return ()

def runHandler (exc : Value) (binding : Option String) (body : Eval Flow) : Eval Flow :=
  whileHandling exc do
    inBlock do
      bindCaught binding exc
      body

end Eval

open Eval

mutual

def Stmt.exec (context : Context) : Stmt → Eval Flow
  | .pass => return .next
  | .block stmts => inBlock (Stmt.execAll context stmts)
  | .declare name ty init => do
      let value ← initialValue context.calls ("declaration of " ++ name) ty init
      declareLocal name value
      return .next
  | .assign target value => do
      let value ← value.eval context.calls
      target.assign context.calls value
      return .next
  | .call callee args => do
      let values ← Expr.evalAll context.calls args
      let _ ← context.calls .statement callee values
      return .next
  | .ret none => return .returned none
  | .ret (some value) => do
      let value ← value.eval context.calls
      return .returned (some value)
  | .branch test yes no => do
      let value ← test.eval context.calls
      Effect.select value (inBlock (yes.exec context)) (inBlock (no.exec context))
  | .count index first last down body => do
      let (first, last) ← pair (first.callFree && last.callFree)
        (first.eval context.calls) (last.eval context.calls)
      countedLoop context.unroll down index first last (body.exec context)
  | .loop test body =>
      testedLoop context.unroll context.rounds (test.eval context.calls)
        (body.exec context)
  | .assert test => do
      let value ← test.eval context.calls
      assertion value
  | .raise none => raiseAgain
  | .raise (some exc) => do
      let value ← exc.eval context.calls
      raise value
  | .attempt body catchers none =>
      Effect.handling (body.exec context) fun exc => do
        let name ← Effect.lift exc.exceptionName
        (Catcher.handler? context exc name catchers).getD (Effect.throwing exc)
  | .attempt body catchers (some otherwise) =>
      Effect.handling (body.exec context) fun exc => do
        let name ← Effect.lift exc.exceptionName
        (Catcher.handler? context exc name catchers).getD
          (runHandler exc none (otherwise.exec context))

/-- Executes statements until one does not end normally. -/
def Stmt.execAll (context : Context) : List Stmt → Eval Flow
  | [] => return .next
  | first :: rest => do
      match ← first.exec context with
      | .next => Stmt.execAll context rest
      | .returned value => return .returned value

/-- The handler of the first catcher that names an exception. -/
def Catcher.handler? (context : Context) (exc : Value) (name : String) :
    List Catcher → Option (Eval Flow)
  | [] => none
  | .mk binding exception body :: rest =>
      if exception = name then some (runHandler exc binding (body.exec context))
      else Catcher.handler? context exc name rest

end

end ArchSpec
