import ArchSpec.Run.Session

/-!
# The moments of a run

What can be observed in the middle of a run: the states that it passes through,
the values that its expressions have, and the exceptions on their way to a
handler.  The moments of a computation are those of its parts, each in the state
in which the evaluator starts it, however the computation ends.
-/

namespace ArchSpec

/-- Something to observe in the middle of a run. -/
inductive Moment where
  /-- A state is passed through. -/
  | passing (state : State)
  /-- An expression or a place has a value. -/
  | produced (value : Value) (state : State)
  /-- An exception is on its way to a handler. -/
  | propagating (exc : Value) (state : State)

/-- The state at a moment. -/
def Moment.state : Moment → State
  | .passing state | .produced _ state | .propagating _ state => state

/-- The moments of a computation that starts in a state. -/
abbrev Moments := State → Moment → Prop

/-- The moments of a call. -/
abbrev CallMoments := Caller → String → List Value → Moments

namespace Moments

variable {α β : Type}

/-- Nothing is observed. -/
def silent : Moments := fun _ _ => False

/-- What is observed in a computation, and after its value if it has one. -/
def bind (first : Eval α) (during : Moments) (next : α → Moments) : Moments :=
  fun before moment => during before moment ∨
    ∃ value between, first before = (.done value, between) ∧ next value between moment

/-- What is observed in two computations, of which the second one follows in any
case but an overflow if both are independent. -/
def pair (independent : Bool) (first : Eval α) (during during' : Moments) : Moments :=
  if independent then
    fun before moment => during before moment ∨
      (first before).1 ≠ .overflowed ∧ during' (first before).2 moment
  else bind first during fun _ => during'

/-- What is observed in one of two computations, as a boolean value says. -/
def select (test : Value) (yes no : Moments) : Moments := fun before moment =>
  test.asBool = .ok true ∧ yes before moment ∨ test.asBool = .ok false ∧ no before moment

def handling (body : Eval α) (during : Moments) (handler : Value → Moments) : Moments :=
  fun before moment => during before moment ∨
    ∃ exc between, body before = (.thrown exc, between) ∧ handler exc between moment

def iterate (step : α → Eval (α ⊕ β)) (during : α → Moments) : Nat → α → Moments
  | 0, _ => silent
  | rounds + 1, current => bind (step current) (during current) fun outcome =>
      match outcome with
      | .inl next => iterate step during rounds next
      | .inr _ => silent

/-- The last moment of a computation whose value is not observed. -/
def ending : Outcome α × State → Moment
  | (.thrown exc, state) => .propagating exc state
  | (_, state) => .passing state

/-- The last moment of an expression or of reading a place. -/
def result : Outcome Value × State → Moment
  | (.done value, state) => .produced value state
  | run => ending run

/-- What is observed before, in and after a computation. -/
def around (last : Outcome α × State → Moment) (body : Eval α) (during : Moments) : Moments :=
  fun before moment =>
    moment = .passing before ∨ during before moment ∨ moment = last (body before)

/-- What is observed in a computation after a change of the state, before the
change is taken back. -/
def within (enter : State → State) (body : Eval α) (during : Moments) : Moments :=
  fun before => around ending body during (enter before)

/-- What is observed before and after one step, and after its value. -/
def stepping (step : Eval α) (next : α → Moments) : Moments :=
  bind step (around ending step silent) next

end Moments

open Eval Moments

section Expressions

variable (calls : Calls) (during : CallMoments)

mutual

def Expr.moments : Expr → Moments
  | .literal literal => around result ((Expr.literal literal).eval calls) silent
  | .var name => around result ((Expr.var name).eval calls) silent
  | .binary op left right =>
      around result ((Expr.binary op left right).eval calls) <|
        match op.decidedBy with
        | some decisive =>
            bind (left.eval calls) left.moments fun value =>
              select value (if decisive then silent else right.moments)
                (if decisive then right.moments else silent)
        | none =>
            pair (left.callFree && right.callFree) (left.eval calls) left.moments right.moments
  | .unary op operand =>
      around result ((Expr.unary op operand).eval calls) operand.moments
  | .call callee args =>
      around result ((Expr.call callee args).eval calls) <|
        bind (Expr.evalAll calls args) (Expr.allMoments args) fun values =>
          during .expression callee values
  | .slice source slices =>
      around result ((Expr.slice source slices).eval calls) <|
        bind (source.eval calls) source.moments fun _ => SliceExpr.allMoments slices
  | .concat items => around result ((Expr.concat items).eval calls) (Expr.allMoments items)
  | .cond test yes no =>
      around result ((Expr.cond test yes no).eval calls) <|
        bind (test.eval calls) test.moments fun value => select value yes.moments no.moments
  | .tuple items => around result ((Expr.tuple items).eval calls) (Expr.allMoments items)
  | .item source index =>
      around result ((Expr.item source index).eval calls) source.moments
  | .record fields =>
      around result ((Expr.record fields).eval calls) (Expr.fieldsMoments fields)
  | .field source name =>
      around result ((Expr.field source name).eval calls) source.moments
  | .exception name fields =>
      around result ((Expr.exception name fields).eval calls) (Expr.fieldsMoments fields)

def Expr.allMoments : List Expr → Moments
  | [] => silent
  | first :: rest =>
      pair (first.callFree && Expr.allCallFree rest) (first.eval calls) first.moments
        (Expr.allMoments rest)

def Expr.fieldsMoments : List (String × Expr) → Moments
  | [] => silent
  | (_, first) :: rest =>
      bind (first.eval calls) first.moments fun _ => Expr.fieldsMoments rest

def SliceExpr.moments : SliceExpr → Moments
  | .single index => index.moments
  | .range high low =>
      pair (high.callFree && low.callFree) (high.eval calls) high.moments low.moments
  | .length start length =>
      pair (start.callFree && length.callFree) (start.eval calls) start.moments length.moments

def SliceExpr.allMoments : List SliceExpr → Moments
  | [] => silent
  | first :: rest => bind (first.eval calls) first.moments fun _ => SliceExpr.allMoments rest

end

mutual

def Ty.moments : Ty → Moments
  | .bits width => width.moments calls during
  | .tuple items => Ty.allMoments items
  | .record fields => Ty.fieldsMoments fields
  | .integer | .boolean | .string | .exception _ | .named _ => silent

def Ty.allMoments : List Ty → Moments
  | [] => silent
  | first :: rest => bind (first.default calls) first.moments fun _ => Ty.allMoments rest

def Ty.fieldsMoments : List (String × Ty) → Moments
  | [] => silent
  | (_, first) :: rest => bind (first.default calls) first.moments fun _ => Ty.fieldsMoments rest

end

def Eval.initialMoments (ty : Option Ty) (init : Option Expr) : Moments :=
  match init, ty with
  | some init, _ => init.moments calls during
  | none, some ty => ty.moments calls during
  | none, none => silent

def Target.readMoments : Target → Moments
  | .discard => silent
  | .var name => around result ((Target.var name).read calls) silent
  | .field whole name =>
      around result ((Target.field whole name).read calls) whole.readMoments
  | .item whole index =>
      around result ((Target.item whole index).read calls) whole.readMoments
  | .slice whole slices =>
      around result ((Target.slice whole slices).read calls) <|
        bind (SliceExpr.evalAll calls slices) (SliceExpr.allMoments calls during slices)
          fun _ => whole.readMoments

def Target.assignMoments : Target → Value → Moments
  | .discard, _ => silent
  | .var _, _ => silent
  | .field whole name, value =>
      bind (whole.read calls) (whole.readMoments calls during) fun container =>
        bind (Effect.lift (container.setField name value)) silent fun updated =>
          whole.assignMoments updated
  | .item whole index, value =>
      bind (whole.read calls) (whole.readMoments calls during) fun container =>
        bind (Effect.lift (container.setItem index.toNat value)) silent fun updated =>
          whole.assignMoments updated
  | .slice whole slices, value =>
      bind (SliceExpr.evalAll calls slices) (SliceExpr.allMoments calls during slices) fun places =>
        bind (whole.read calls) (whole.readMoments calls during) fun container =>
          bind (Effect.lift (Slice.write places value container)) silent fun updated =>
            whole.assignMoments updated

end Expressions

namespace Moments

variable {α : Type}

/-- What is observed in a block of its own. -/
def inBlock (body : Eval α) (during : Moments) : Moments :=
  within (State.onStorage Storage.pushBlock) body during

def countedRound (index : String) (current : Int) (body : Eval Flow) (during : Moments) : Moments :=
  inBlock (do
      declareLocal index (.int current)
      body)
    (stepping (declareLocal index (.int current)) fun _ => during)

def countedRounds (unroll : Nat) (down : Bool) (index : String) (body : Eval Flow)
    (during : Moments) : Nat → Int → Nat → Moments
  | 0, _, _ => silent
  | left + 1, current, finished =>
      bind (do
          checkUnroll unroll finished
          Eval.countedRound index current body)
        (stepping (checkUnroll unroll finished) fun _ => countedRound index current body during)
        fun flow =>
          match flow with
          | .next => countedRounds unroll down index body during left
              (if down then current - 1 else current + 1) (countRound finished)
          | .returned _ => silent

def countedLoop (unroll : Nat) (down : Bool) (index : String) (first last : Value)
    (body : Eval Flow) (during : Moments) : Moments :=
  bind (Effect.lift (loopBounds down first last)) silent fun bounds =>
    countedRounds unroll down index body during (roundCount down bounds.1 bounds.2) bounds.1 0

def testedRound (unroll : Nat) (test : Eval Value) (testing : Moments) (body : Eval Flow)
    (during : Moments) (finished : Nat) : Moments :=
  bind test testing fun value =>
    select value (stepping (checkUnroll unroll finished) fun _ => inBlock body during) silent

def runHandler (exc : Value) (binding : Option String) (body : Eval Flow) (during : Moments) :
    Moments :=
  let handler := do
    bindCaught binding exc
    body
  within (State.pushHandled exc) (Eval.inBlock handler)
    (inBlock handler (stepping (bindCaught binding exc) fun _ => during))

end Moments

section Statements

variable (context : Context) (during : CallMoments)

mutual

def Stmt.moments : Stmt → Moments
  | .pass => around ending (Stmt.pass.exec context) silent
  | .block stmts =>
      around ending ((Stmt.block stmts).exec context)
        (inBlock (Stmt.execAll context stmts) (Stmt.allMoments stmts))
  | .declare name ty init =>
      around ending ((Stmt.declare name ty init).exec context)
        (initialMoments context.calls during ty init)
  | .assign target value =>
      around ending ((Stmt.assign target value).exec context) <|
        bind (value.eval context.calls) (value.moments context.calls during) fun value =>
          target.assignMoments context.calls during value
  | .call callee args =>
      around ending ((Stmt.call callee args).exec context) <|
        bind (Expr.evalAll context.calls args) (Expr.allMoments context.calls during args)
          fun values => during .statement callee values
  | .ret none => around ending ((Stmt.ret none).exec context) silent
  | .ret (some value) =>
      around ending ((Stmt.ret (some value)).exec context) (value.moments context.calls during)
  | .branch test yes no =>
      around ending ((Stmt.branch test yes no).exec context) <|
        bind (test.eval context.calls) (test.moments context.calls during) fun value =>
          select value (inBlock (yes.exec context) yes.moments)
            (inBlock (no.exec context) no.moments)
  | .count index first last down body =>
      around ending ((Stmt.count index first last down body).exec context) <|
        bind (Eval.pair (first.callFree && last.callFree) (first.eval context.calls)
            (last.eval context.calls))
          (pair (first.callFree && last.callFree) (first.eval context.calls)
            (first.moments context.calls during) (last.moments context.calls during))
          fun bounds => countedLoop context.unroll down index bounds.1 bounds.2
            (body.exec context) body.moments
  | .loop test body =>
      around ending ((Stmt.loop test body).exec context) <|
        iterate (Eval.testedRound context.unroll (test.eval context.calls) (body.exec context))
          (testedRound context.unroll (test.eval context.calls)
            (test.moments context.calls during) (body.exec context) body.moments)
          context.rounds 0
  | .assert test =>
      around ending ((Stmt.assert test).exec context) (test.moments context.calls during)
  | .raise none => around ending ((Stmt.raise none).exec context) silent
  | .raise (some exc) =>
      around ending ((Stmt.raise (some exc)).exec context) (exc.moments context.calls during)
  | .attempt body catchers none =>
      around ending ((Stmt.attempt body catchers none).exec context) <|
        handling (body.exec context) body.moments fun exc =>
          bind (Effect.lift exc.exceptionName) silent fun name =>
            Catcher.moments exc name silent catchers
  | .attempt body catchers (some otherwise) =>
      around ending ((Stmt.attempt body catchers (some otherwise)).exec context) <|
        handling (body.exec context) body.moments fun exc =>
          bind (Effect.lift exc.exceptionName) silent fun name =>
            Catcher.moments exc name
              (runHandler exc none (otherwise.exec context) otherwise.moments) catchers

def Stmt.allMoments : List Stmt → Moments
  | [] => silent
  | first :: rest =>
      bind (first.exec context) first.moments fun flow =>
        match flow with
        | .next => Stmt.allMoments rest
        | .returned _ => silent

/-- The moments of the first catcher that names an exception. -/
def Catcher.moments (exc : Value) (name : String) (otherwise : Moments) : List Catcher → Moments
  | [] => otherwise
  | .mk binding exception body :: rest =>
      if exception = name then runHandler exc binding (body.exec context) body.moments
      else Catcher.moments exc name otherwise rest

end

end Statements

/-! ## Calls and runs -/

def Eval.parameterMoments : List (String × Ty) → List Value → Moments
  | (name, _) :: args, value :: values =>
      stepping (declareLocal name value) fun _ => parameterMoments args values
  | _, _ => silent

/-- The moments of one call, given those of the calls in its body. -/
def Eval.callMoments (subprograms : String → Option Subprogram) (context : Context)
    (during : CallMoments) : CallMoments := fun _ name values =>
  match subprograms name with
  | none => silent
  | some decl =>
      match decl.body with
      | .primitive _ => silent
      | .stmt body =>
          if decl.args.length = values.length then
            bind (countActivation name) silent fun _ =>
              within (State.onStorage (·.pushFrame name))
                  (do
                    bindParameters decl.args values
                    body.exec context) <|
                bind (bindParameters decl.args values) (parameterMoments decl.args values) fun _ =>
                  body.moments context during
          else silent

def Eval.callMomentsWithin (subprograms : String → Option Subprogram) (unroll : Nat) :
    Nat → CallMoments
  | 0 => fun _ _ _ => silent
  | bound + 1 => callMoments subprograms ⟨callWithin subprograms unroll bound, bound, unroll⟩
      (callMomentsWithin subprograms unroll bound)

namespace Session

def globalMoments (calls : Calls) (during : CallMoments) : List Global → Moments
  | [] => silent
  | decl :: rest =>
      bind (Eval.initialValue calls ("global " ++ decl.name) decl.ty decl.init)
        (initialMoments calls during decl.ty decl.init) fun value =>
          stepping (Eval.declareGlobal decl.name value) fun _ => globalMoments calls during rest

/-- The moments of a run of a program. -/
def runMoments (session : Session) (bound : Nat) (program : Program) : Moments :=
  let subprograms := Named.get? (session.subprograms.addAll program)
  let calls := callWithin subprograms session.unroll bound
  let during := callMomentsWithin subprograms session.unroll bound
  around ending (runGlobalsAndMain calls program.globals) <|
    bind (whileInitialising (initGlobals calls program.globals))
      (around ending (whileInitialising (initGlobals calls program.globals)) <|
        within (State.onStorage (·.setInitialising true)) (initGlobals calls program.globals)
          (globalMoments calls during program.globals))
      fun _ => during .run entryPoint []

section Sequences

variable {session : Session} {bound : Nat} {program : Program}

/-- Nothing runs after an overflow. -/
theorem runAll_cons_of_overflowed (hrun : (session.run bound program).1 = .overflowed)
    (rest : List Program) :
    session.runAll bound (program :: rest) = ([.overflowed], (session.run bound program).2) := by
  rw [runAll]
  generalize session.run bound program = run at hrun ⊢
  obtain ⟨outcome, after⟩ := run
  obtain rfl : outcome = .overflowed := hrun
  rfl

theorem runAll_cons (hrun : (session.run bound program).1 ≠ .overflowed) (rest : List Program) :
    session.runAll bound (program :: rest) =
      ((session.run bound program).1 :: ((session.run bound program).2.runAll bound rest).1,
        ((session.run bound program).2.runAll bound rest).2) := by
  rw [runAll]
  generalize session.run bound program = run at hrun ⊢
  obtain ⟨outcome, after⟩ := run
  cases outcome with
  | overflowed => exact absurd rfl hrun
  | done | thrown | failed | exhausted => rfl

end Sequences

/-- A moment of one of several runs, one after the other up to the first overflow. -/
def Meets (session : Session) (bound : Nat) : List Program → Moment → Prop
  | [], _ => False
  | program :: rest, moment => session.runMoments bound program session.state moment ∨
      (session.run bound program).1 ≠ .overflowed ∧
        (session.run bound program).2.Meets bound rest moment

end Session

end ArchSpec
