import ArchSpec.Proofs.Faults.Operations
import ArchSpec.Proofs.Relation.Closure

/-!
# Faults of evaluation

Expressions, statements and calls end with ordinary faults only, by recursion on the
syntax and on the bound on nested calls.  So a run that reports an exception has had
one thrown by its initialisers or by its entry point.
-/

namespace ArchSpec

variable {α β : Type}

def Outcome.Ordinary : Outcome α → Prop
  | .failed fault => fault.Ordinary
  | _ => True

theorem Outcome.Ordinary.both {left : Outcome α} {right : Outcome β} (hleft : left.Ordinary)
    (hright : right.Ordinary) : (left.both right).Ordinary := by
  cases left <;> cases right <;> first | exact hleft | exact hright

/-- The computation ends with ordinary faults only. -/
def Eval.Ordinary (body : Eval α) : Prop := ∀ before, (body before).1.Ordinary

namespace Eval.Ordinary

variable {body : Eval α}

/-! ## Single steps -/

theorem of_outcome {outcome : Outcome α} (houtcome : outcome.Ordinary) :
    Ordinary fun state => (outcome, state) := fun _ => houtcome

theorem ret (value : α) : Ordinary (pure value : Eval α) := of_outcome trivial

theorem fault {cause : Fault} (hcause : cause.Ordinary) :
    Ordinary (Effect.fault cause : Eval α) := of_outcome hcause

theorem throwing (exc : Value) : Ordinary (Effect.throwing exc : Eval α) := of_outcome trivial

theorem lift {result : Except Fault α} (hresult : OrdinaryResult result) :
    Ordinary (Effect.lift result) := by
  cases result with
  | ok value => exact ret value
  | error cause => exact fault hresult

theorem modify (change : State → State) : Ordinary (Effect.modify change) := fun _ => trivial

theorem readVariable (name : String) : Ordinary (Eval.readVariable name) := by
  intro before
  rw [Eval.readVariable]
  split <;> exact trivial

theorem writeVariable (name : String) (value : Value) :
    Ordinary (Eval.writeVariable name value) := by
  intro before
  rw [Eval.writeVariable]
  split <;> exact trivial

theorem raiseAgain : Ordinary (Eval.raiseAgain : Eval α) := by
  intro before
  rw [Eval.raiseAgain]
  split <;> exact trivial

/-! ## Parts of a computation -/

theorem bind {next : α → Eval β} (hbody : Ordinary body) (hnext : ∀ value, Ordinary (next value)) :
    Ordinary (body >>= next) := by
  intro before
  change (Effect.bind body next before).1.Ordinary
  have hend := hbody before
  rw [Effect.bind]
  rcases hrun : body before with ⟨outcome, between⟩
  rw [hrun] at hend
  cases outcome with
  | done value => exact hnext value between
  | failed cause => exact hend
  | thrown | overflowed | exhausted => exact trivial

theorem both {second : Eval β} (hbody : Ordinary body) (hsecond : Ordinary second) :
    Ordinary (Effect.both body second) := by
  intro before
  by_cases hover : (body before).1 = .overflowed
  · rw [Effect.both_of_overflowed hover]
    exact trivial
  · rw [Effect.both_of_not_overflowed hover]
    exact (hbody before).both (hsecond (body before).2)

theorem pair {second : Eval β} (hbody : Ordinary body) (hsecond : Ordinary second)
    (independent : Bool) : Ordinary (Eval.pair independent body second) := by
  cases independent with
  | false => exact hbody.bind fun _ => hsecond.bind fun _ => ret _
  | true => exact hbody.both hsecond

theorem liftSized {result : Except Fault (Option α)} (hresult : OrdinaryResult result) :
    Ordinary (Effect.liftSized result) :=
  (lift hresult).bind fun found => by
    cases found with
    | some value => exact ret value
    | none => exact of_outcome trivial

theorem select {yes no : Eval α} (test : Value) (hyes : Ordinary yes) (hno : Ordinary no) :
    Ordinary (Effect.select test yes no) :=
  (lift test.ordinary_asBool).bind fun outcome => by
    cases outcome with
    | false => exact hno
    | true => exact hyes

theorem within (enter leave : State → State) (hbody : Ordinary body) :
    Ordinary (Effect.within enter leave body) := by
  intro before
  have hend := hbody (enter before)
  rw [Effect.within]
  rcases hrun : body (enter before) with ⟨outcome, after⟩
  rw [hrun] at hend
  cases outcome with
  | failed cause => exact hend
  | done | thrown | overflowed | exhausted => exact trivial

theorem handling {handler : Value → Eval α} (hbody : Ordinary body)
    (hhandler : ∀ exc, Ordinary (handler exc)) : Ordinary (Effect.handling body handler) := by
  intro before
  have hend := hbody before
  rw [Effect.handling]
  rcases hrun : body before with ⟨outcome, after⟩
  rw [hrun] at hend
  cases outcome with
  | thrown exc => exact hhandler exc after
  | done | failed | overflowed | exhausted => exact hend

theorem iterate {step : α → Eval (α ⊕ β)} (hstep : ∀ current, Ordinary (step current))
    (rounds : Nat) (current : α) : Ordinary (Effect.iterate step rounds current) := by
  induction rounds generalizing current with
  | zero => exact fun _ => trivial
  | succ rounds ih =>
      rw [Effect.iterate_succ]
      apply (hstep current).bind
      intro outcome
      cases outcome with
      | inl next => exact ih next
      | inr final => exact ret final

/-! ## Blocks, handlers and rounds -/

theorem inBlock (hbody : Ordinary body) : Ordinary (Eval.inBlock body) := hbody.within _ _

theorem inActivation (hbody : Ordinary body) (subprogram : String) :
    Ordinary (Eval.inActivation subprogram body) := by
  have hcount : Ordinary (Eval.countActivation subprogram) := by
    intro before
    rw [Eval.countActivation]
    split <;> exact trivial
  exact hcount.bind fun _ => hbody.within _ _

theorem runHandler {body : Eval Flow} (hbody : Ordinary body) (exc : Value)
    (binding : Option String) : Ordinary (Eval.runHandler exc binding body) := by
  have hbind : Ordinary (Eval.bindCaught binding exc) := by
    cases binding with
    | none => exact ret ()
    | some name => exact modify _
  exact (hbind.bind fun _ => hbody).inBlock.within _ _

theorem checkUnroll (unroll finished : Nat) : Ordinary (Eval.checkUnroll unroll finished) := by
  rw [Eval.checkUnroll]
  split
  · exact modify _
  · exact ret ()

theorem countedRounds {body : Eval Flow} (hbody : Ordinary body) (unroll : Nat) (down : Bool)
    (index : String) (rounds : Nat) (current : Int) (finished : Nat) :
    Ordinary (Eval.countedRounds unroll down index body rounds current finished) := by
  induction rounds generalizing current finished with
  | zero => exact ret Flow.next
  | succ rounds ih =>
      have hround : Ordinary (Eval.countedRound index current body) :=
        ((modify _).bind fun _ => hbody).inBlock
      rw [Eval.countedRounds_succ]
      apply ((checkUnroll unroll finished).bind fun _ => hround).bind
      intro flow
      cases flow with
      | next => exact ih _ _
      | returned value => exact ret _

theorem countedLoop {body : Eval Flow} (hbody : Ordinary body) (unroll : Nat) (down : Bool)
    (index : String) (first last : Value) :
    Ordinary (Eval.countedLoop unroll down index first last body) :=
  (lift (Eval.ordinary_loopBounds down first last)).bind fun _ =>
    hbody.countedRounds _ _ _ _ _ _

theorem testedLoop {test : Eval Value} {body : Eval Flow} (htest : Ordinary test)
    (hbody : Ordinary body) (unroll rounds : Nat) :
    Ordinary (Eval.testedLoop unroll rounds test body) := by
  refine iterate (fun finished => htest.bind fun value => .select value ?_ (ret _)) rounds 0
  refine (checkUnroll unroll finished).bind fun _ => hbody.inBlock.bind fun flow => ?_
  cases flow with
  | next => exact ret _
  | returned value => exact ret _

theorem theResult (callee : String) (results : List Value) :
    Ordinary (Eval.theResult callee results) := by
  match results with
  | [] | _ :: _ :: _ => exact fault trivial
  | [value] => exact ret value

end Eval.Ordinary

/-- All calls end with ordinary faults only. -/
def Calls.Ordinary (calls : Calls) : Prop :=
  ∀ (caller : Caller) (name : String) (values : List Value),
    Eval.Ordinary (calls caller name values)

open Eval

/-! ## Expressions -/

section Expressions

variable {calls : Calls}

mutual

theorem Expr.eval_ordinary (hcalls : calls.Ordinary) : ∀ expr : Expr, Ordinary (expr.eval calls)
  | .literal literal => by
      simp only [Expr.eval]
      exact .lift literal.ordinary_value
  | .var name => by
      simp only [Expr.eval]
      exact .readVariable name
  | .binary op left right => by
      have hleft := left.eval_ordinary hcalls
      have hright := right.eval_ordinary hcalls
      cases hdecided : op.decidedBy with
      | some decisive =>
          simp only [Expr.eval, hdecided]
          refine hleft.bind fun value => (Ordinary.lift value.ordinary_asBool).bind fun _ => ?_
          split
          · exact .lift (op.ordinary_apply value value)
          · exact hright.bind fun other => .lift (op.ordinary_apply value other)
      | none =>
          simp only [Expr.eval, hdecided]
          exact (hleft.pair hright _).bind fun values =>
            .lift (op.ordinary_apply values.1 values.2)
  | .unary op operand => by
      simp only [Expr.eval]
      exact (operand.eval_ordinary hcalls).bind fun value => .lift (op.ordinary_apply value)
  | .call callee args => by
      simp only [Expr.eval]
      exact (Expr.evalAll_ordinary hcalls args).bind fun values =>
        (hcalls .expression callee values).bind fun results => .theResult callee results
  | .slice source slices => by
      simp only [Expr.eval]
      exact (source.eval_ordinary hcalls).bind fun value =>
        (SliceExpr.evalAll_ordinary hcalls slices).bind fun positions =>
          .liftSized (Slice.ordinary_read positions value)
  | .concat items => by
      simp only [Expr.eval]
      exact (Expr.evalAll_ordinary hcalls items).bind fun values =>
        .liftSized (Slice.ordinary_concat values)
  | .cond test yes no => by
      simp only [Expr.eval]
      exact (test.eval_ordinary hcalls).bind fun value =>
        .select value (yes.eval_ordinary hcalls) (no.eval_ordinary hcalls)
  | .tuple items => by
      simp only [Expr.eval]
      exact (Expr.evalAll_ordinary hcalls items).bind fun _ => .ret _
  | .item source index => by
      simp only [Expr.eval]
      exact (source.eval_ordinary hcalls).bind fun value => .lift (value.ordinary_getItem _)
  | .record fields => by
      simp only [Expr.eval]
      exact (Expr.evalFields_ordinary hcalls fields).bind fun values =>
        .lift (Value.ordinary_makeRecord values)
  | .field source name => by
      simp only [Expr.eval]
      exact (source.eval_ordinary hcalls).bind fun value => .lift (value.ordinary_getField name)
  | .exception name fields => by
      simp only [Expr.eval]
      exact (Expr.evalFields_ordinary hcalls fields).bind fun values =>
        .lift (Value.ordinary_makeException name values)

theorem Expr.evalAll_ordinary (hcalls : calls.Ordinary) :
    ∀ exprs : List Expr, Ordinary (Expr.evalAll calls exprs)
  | [] => by
      simp only [Expr.evalAll]
      exact .ret _
  | first :: rest => by
      simp only [Expr.evalAll]
      exact ((first.eval_ordinary hcalls).pair (Expr.evalAll_ordinary hcalls rest) _).bind
        fun _ => .ret _

theorem Expr.evalFields_ordinary (hcalls : calls.Ordinary) : ∀ fields : List (String × Expr),
    Ordinary (Expr.evalFields calls fields)
  | [] => by
      simp only [Expr.evalFields]
      exact .ret _
  | (_, first) :: rest => by
      simp only [Expr.evalFields]
      exact (first.eval_ordinary hcalls).bind fun _ =>
        (Expr.evalFields_ordinary hcalls rest).bind fun _ => .ret _

theorem SliceExpr.eval_ordinary (hcalls : calls.Ordinary) :
    ∀ slice : SliceExpr, Ordinary (slice.eval calls)
  | .single index => by
      simp only [SliceExpr.eval]
      exact (index.eval_ordinary hcalls).bind fun _ => .ret _
  | .range high low => by
      simp only [SliceExpr.eval]
      exact ((high.eval_ordinary hcalls).pair (low.eval_ordinary hcalls) _).bind fun ends =>
        (Ordinary.lift (ordinary_rangeLength ends.1 ends.2)).bind fun _ => .ret _
  | .length start length => by
      simp only [SliceExpr.eval]
      exact (start.eval_ordinary hcalls).pair (length.eval_ordinary hcalls) _

theorem SliceExpr.evalAll_ordinary (hcalls : calls.Ordinary) : ∀ slices : List SliceExpr,
    Ordinary (SliceExpr.evalAll calls slices)
  | [] => by
      simp only [SliceExpr.evalAll]
      exact .ret _
  | first :: rest => by
      simp only [SliceExpr.evalAll]
      exact (first.eval_ordinary hcalls).bind fun _ =>
        (SliceExpr.evalAll_ordinary hcalls rest).bind fun _ => .ret _

end

mutual

theorem Ty.default_ordinary (hcalls : calls.Ordinary) : ∀ ty : Ty, Ordinary (ty.default calls)
  | .integer | .boolean | .string => by
      simp only [Ty.default]
      exact .ret _
  | .bits width => by
      simp only [Ty.default]
      exact (Expr.eval_ordinary hcalls width).bind fun value => .lift value.ordinary_zeros
  | .tuple items => by
      simp only [Ty.default]
      exact (Ty.defaultAll_ordinary hcalls items).bind fun _ => .ret _
  | .record fields => by
      simp only [Ty.default]
      exact (Ty.defaultFields_ordinary hcalls fields).bind fun values =>
        .lift (Value.ordinary_makeRecord values)
  | .exception _ | .named _ => by
      simp only [Ty.default]
      exact .fault trivial

theorem Ty.defaultAll_ordinary (hcalls : calls.Ordinary) :
    ∀ types : List Ty, Ordinary (Ty.defaultAll calls types)
  | [] => by
      simp only [Ty.defaultAll]
      exact .ret _
  | first :: rest => by
      simp only [Ty.defaultAll]
      exact (first.default_ordinary hcalls).bind fun _ =>
        (Ty.defaultAll_ordinary hcalls rest).bind fun _ => .ret _

theorem Ty.defaultFields_ordinary (hcalls : calls.Ordinary) : ∀ fields : List (String × Ty),
    Ordinary (Ty.defaultFields calls fields)
  | [] => by
      simp only [Ty.defaultFields]
      exact .ret _
  | (_, first) :: rest => by
      simp only [Ty.defaultFields]
      exact (first.default_ordinary hcalls).bind fun _ =>
        (Ty.defaultFields_ordinary hcalls rest).bind fun _ => .ret _

end

theorem Eval.initialValue_ordinary (hcalls : calls.Ordinary) (what : String) (ty : Option Ty)
    (init : Option Expr) : Ordinary (Eval.initialValue calls what ty init) := by
  cases init with
  | some init => exact init.eval_ordinary hcalls
  | none =>
      cases ty with
      | some ty => exact ty.default_ordinary hcalls
      | none => exact .fault trivial

/-! ## Targets -/

theorem Target.read_ordinary (hcalls : calls.Ordinary) :
    ∀ target : Target, Ordinary (target.read calls)
  | .discard => by
      simp only [Target.read]
      exact .fault trivial
  | .var name => by
      simp only [Target.read]
      exact .readVariable name
  | .field whole name => by
      simp only [Target.read]
      exact (whole.read_ordinary hcalls).bind fun value => .lift (value.ordinary_getField name)
  | .item whole index => by
      simp only [Target.read]
      exact (whole.read_ordinary hcalls).bind fun value => .lift (value.ordinary_getItem _)
  | .slice whole slices => by
      simp only [Target.read]
      exact (SliceExpr.evalAll_ordinary hcalls slices).bind fun positions =>
        (whole.read_ordinary hcalls).bind fun value =>
          .liftSized (Slice.ordinary_read positions value)

theorem Target.assign_ordinary (hcalls : calls.Ordinary) : ∀ (target : Target) (value : Value),
    Ordinary (target.assign calls value)
  | .discard, _ => by
      simp only [Target.assign]
      exact .ret _
  | .var name, value => by
      simp only [Target.assign]
      exact .writeVariable name value
  | .field whole name, value => by
      simp only [Target.assign]
      exact (whole.read_ordinary hcalls).bind fun container =>
        (Ordinary.lift (container.ordinary_setField name value)).bind
          (whole.assign_ordinary hcalls)
  | .item whole index, value => by
      simp only [Target.assign]
      exact (whole.read_ordinary hcalls).bind fun container =>
        (Ordinary.lift (container.ordinary_setItem _ value)).bind (whole.assign_ordinary hcalls)
  | .slice whole slices, value => by
      simp only [Target.assign]
      exact (SliceExpr.evalAll_ordinary hcalls slices).bind fun positions =>
        (whole.read_ordinary hcalls).bind fun container =>
          (Ordinary.lift (Slice.ordinary_write positions value container)).bind
            (whole.assign_ordinary hcalls)

end Expressions

/-! ## Statements -/

section Statements

variable {context : Context}

mutual

theorem Stmt.exec_ordinary (hcalls : context.calls.Ordinary) :
    ∀ stmt : Stmt, Ordinary (stmt.exec context)
  | .pass | .ret none => by
      simp only [Stmt.exec]
      exact .ret _
  | .block stmts => by
      simp only [Stmt.exec]
      exact (Stmt.execAll_ordinary hcalls stmts).inBlock
  | .declare name ty init => by
      simp only [Stmt.exec]
      exact (Eval.initialValue_ordinary hcalls _ ty init).bind fun _ =>
        (Ordinary.modify _).bind fun _ => .ret _
  | .assign target value => by
      simp only [Stmt.exec]
      exact (value.eval_ordinary hcalls).bind fun value =>
        (target.assign_ordinary hcalls value).bind fun _ => .ret _
  | .call callee args => by
      simp only [Stmt.exec]
      exact (Expr.evalAll_ordinary hcalls args).bind fun values =>
        (hcalls .statement callee values).bind fun _ => .ret _
  | .ret (some value) => by
      simp only [Stmt.exec]
      exact (value.eval_ordinary hcalls).bind fun _ => .ret _
  | .branch test yes no => by
      simp only [Stmt.exec]
      exact (test.eval_ordinary hcalls).bind fun value =>
        .select value (yes.exec_ordinary hcalls).inBlock (no.exec_ordinary hcalls).inBlock
  | .count index first last down body => by
      simp only [Stmt.exec]
      exact ((first.eval_ordinary hcalls).pair (last.eval_ordinary hcalls) _).bind fun bounds =>
        (body.exec_ordinary hcalls).countedLoop _ down index bounds.1 bounds.2
  | .loop test body => by
      simp only [Stmt.exec]
      exact (test.eval_ordinary hcalls).testedLoop (body.exec_ordinary hcalls) _ _
  | .assert test => by
      simp only [Stmt.exec]
      exact (test.eval_ordinary hcalls).bind fun value =>
        .select value (.ret _) (.fault trivial)
  | .raise none => by
      simp only [Stmt.exec]
      exact .raiseAgain
  | .raise (some exc) => by
      simp only [Stmt.exec]
      exact (exc.eval_ordinary hcalls).bind fun value =>
        (Ordinary.lift value.ordinary_exceptionName).bind fun _ => .throwing value
  | .attempt body catchers none => by
      simp only [Stmt.exec]
      refine (body.exec_ordinary hcalls).handling fun exc =>
        (Ordinary.lift exc.ordinary_exceptionName).bind fun name => ?_
      exact Catcher.handler?_ordinary hcalls exc name (.throwing exc) catchers
  | .attempt body catchers (some otherwise) => by
      simp only [Stmt.exec]
      refine (body.exec_ordinary hcalls).handling fun exc =>
        (Ordinary.lift exc.ordinary_exceptionName).bind fun name => ?_
      exact Catcher.handler?_ordinary hcalls exc name
        ((otherwise.exec_ordinary hcalls).runHandler exc none) catchers

theorem Stmt.execAll_ordinary (hcalls : context.calls.Ordinary) :
    ∀ stmts : List Stmt, Ordinary (Stmt.execAll context stmts)
  | [] => by
      simp only [Stmt.execAll]
      exact .ret _
  | first :: rest => by
      simp only [Stmt.execAll]
      apply (first.exec_ordinary hcalls).bind
      intro flow
      cases flow with
      | next => exact Stmt.execAll_ordinary hcalls rest
      | returned value => exact .ret _

theorem Catcher.handler?_ordinary (hcalls : context.calls.Ordinary) (exc : Value) (name : String)
    {otherwise : Eval Flow} (hotherwise : Ordinary otherwise) : ∀ catchers : List Catcher,
    Ordinary ((Catcher.handler? context exc name catchers).getD otherwise)
  | [] => by
      simp only [Catcher.handler?]
      exact hotherwise
  | .mk binding exception body :: rest => by
      simp only [Catcher.handler?]
      split
      · exact (body.exec_ordinary hcalls).runHandler exc binding
      · exact Catcher.handler?_ordinary hcalls exc name hotherwise rest

end

end Statements

/-! ## Calls and runs -/

theorem Eval.bindParameters_ordinary : ∀ (args : List (String × Ty)) (values : List Value),
    Ordinary (bindParameters args values)
  | [], _ | _ :: _, [] => .ret ()
  | _ :: args, _ :: values => (Ordinary.modify _).bind fun _ => bindParameters_ordinary args values

theorem Eval.call_ordinary (subprograms : String → Option Subprogram) {context : Context}
    (hcalls : context.calls.Ordinary) : (call subprograms context).Ordinary := by
  intro caller name values
  rw [call]
  cases subprograms name with
  | none => exact .fault trivial
  | some decl =>
      cases hbody : decl.body with
      | primitive primitive =>
          simp only [hbody, callPrimitive]
          cases Primitive.ofName? primitive with
          | none => exact .fault trivial
          | some primitive =>
              exact (Ordinary.lift (primitive.ordinary_call values)).bind fun _ =>
                (Ordinary.modify _).bind fun _ => .ret _
      | stmt body =>
          simp only [hbody]
          split
          · have hframe := (bindParameters_ordinary decl.args values).bind fun _ =>
              body.exec_ordinary hcalls
            exact (hframe.inActivation name).bind fun _ => .ret _
          · exact .fault trivial

theorem Eval.callWithin_ordinary (subprograms : String → Option Subprogram) (unroll bound : Nat) :
    (callWithin subprograms unroll bound).Ordinary := by
  induction bound with
  | zero => exact fun _ _ _ _ => trivial
  | succ bound ih => exact call_ordinary subprograms ih

namespace Session

variable {calls : Calls}

theorem initGlobals_ordinary (hcalls : calls.Ordinary) : ∀ globals : List Global,
    Ordinary (initGlobals calls globals)
  | [] => .ret ()
  | decl :: rest => (Eval.initialValue_ordinary hcalls _ decl.ty decl.init).bind fun _ =>
      (Ordinary.modify _).bind fun _ => initGlobals_ordinary hcalls rest

theorem callMain_ordinary (hcalls : calls.Ordinary) : Ordinary (callMain calls) := by
  refine (hcalls .run entryPoint []).bind fun results => ?_
  split
  · exact .ret _
  · exact .fault trivial

/-- If a run reports an exception, that is what its initialisers or its entry point
throw. -/
theorem thrown_of_uncaught (hcalls : calls.Ordinary) {globals : List Global}
    {before : State} {text : String}
    (hrun : (runGlobalsAndMain calls globals before).1 = .failed (.uncaughtException text)) :
    ∃ exc after, text = exc.print ∧
      (whileInitialising (initGlobals calls globals) >>= fun _ => callMain calls) before =
        (.thrown exc, after) := by
  have hbody : Ordinary (whileInitialising (initGlobals calls globals) >>= fun _ =>
      callMain calls) :=
    ((initGlobals_ordinary hcalls globals).within _ _).bind fun _ => callMain_ordinary hcalls
  have hend := hbody before
  rw [runGlobalsAndMain, Effect.handling] at hrun
  rcases hinner : (whileInitialising (initGlobals calls globals) >>= fun _ =>
    callMain calls) before with ⟨outcome, after⟩
  rw [hinner] at hend hrun
  cases outcome with
  | thrown exc =>
      cases hrun
      exact ⟨exc, after, rfl, rfl⟩
  | failed cause =>
      cases hrun
      exact hend.elim
  | done | overflowed | exhausted => cases hrun

end Session

end ArchSpec
