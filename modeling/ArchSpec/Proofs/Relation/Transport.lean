import ArchSpec.Proofs.Relation.Closure
import ArchSpec.Proofs.Relation.Variables

/-!
# Transport along the evaluator

A closed relation between the meanings of calls carries over to everything that
makes these calls: expressions, types, targets and statements by recursion on
syntax, calls and whole runs by recursion on the bound.  Only the calls that
occur in a term have to be related, and only the variables that occur in an
expression, so the same recursion also says that a term makes no other calls and
that an expression reads no other variables.
-/

namespace ArchSpec

/-- Who makes a call that is found in a program. -/
def Call.caller (call : Call) : Caller :=
  if call.forValue then .expression else .statement

/-- The calls of a list are related whenever they are made with the number of
arguments that they have there. -/
def CallsRel (V : Value → Prop) (R : EvalRel) (calls calls' : Calls) (sites : List Call) : Prop :=
  ∀ site ∈ sites, ∀ values : List Value, values.length = site.argCount → Value.Each V values →
    R (List Value) (Value.Each V) (calls site.caller site.callee values)
      (calls' site.caller site.callee values)

namespace CallsRel

variable {V : Value → Prop} {R : EvalRel} {calls calls' : Calls} {site : Call}
variable {first second : List Call}

theorem append_iff : CallsRel V R calls calls' (first ++ second) ↔
    CallsRel V R calls calls' first ∧ CallsRel V R calls calls' second :=
  List.forall_mem_append

theorem left (hcalls : CallsRel V R calls calls' (first ++ second)) :
    CallsRel V R calls calls' first := (append_iff.mp hcalls).1

theorem right (hcalls : CallsRel V R calls calls' (first ++ second)) :
    CallsRel V R calls calls' second := (append_iff.mp hcalls).2

theorem head (hcalls : CallsRel V R calls calls' (site :: second)) {values : List Value}
    (hlength : values.length = site.argCount) (hvalues : Value.Each V values) :
    R (List Value) (Value.Each V) (calls site.caller site.callee values)
      (calls' site.caller site.callee values) :=
  hcalls site (List.mem_cons_self ..) values hlength hvalues

theorem tail (hcalls : CallsRel V R calls calls' (site :: second)) :
    CallsRel V R calls calls' second :=
  fun other hother => hcalls other (List.mem_cons_of_mem _ hother)

/-- Calls that are always related are related wherever they occur. -/
theorem of_forall {sites : List Call}
    (hcalls : ∀ (caller : Caller) (name : String) (values : List Value), Value.Each V values →
      R (List Value) (Value.Each V) (calls caller name values) (calls' caller name values)) :
    CallsRel V R calls calls' sites :=
  fun site _ values _ hvalues => hcalls site.caller site.callee values hvalues

end CallsRel

/-- The variables of a list are related wherever they are read. -/
def ReadsRel (V : Value → Prop) (R : EvalRel) (names : List String) : Prop :=
  ∀ name ∈ names, R Value V (Eval.readVariable name) (Eval.readVariable name)

namespace ReadsRel

variable {V : Value → Prop} {R : EvalRel} {first second : List String}

theorem left (hreads : ReadsRel V R (first ++ second)) : ReadsRel V R first :=
  (List.forall_mem_append.mp hreads).1

theorem right (hreads : ReadsRel V R (first ++ second)) : ReadsRel V R second :=
  (List.forall_mem_append.mp hreads).2

/-- Variables that are always related are related wherever they are read. -/
theorem of_exprRel (hR : ExprRel V R) {names : List String} : ReadsRel V R names :=
  fun _ _ => hR.readVariable

end ReadsRel

/-! ## Expressions -/

section Pure

variable {V X : Value → Prop} {R : EvalRel} {calls calls' : Calls}

mutual

theorem Expr.eval_relatedOn (hR : PureRel R) (hV : ValueLaws V X) :
    ∀ expr : Expr, CallsRel V R calls calls' expr.calls →
    ReadsRel V R expr.variables → R Value V (expr.eval calls) (expr.eval calls')
  | .literal literal, _, _ => by
      simp only [Expr.eval]
      exact hR.lift fun _ hvalue => hV.literal hvalue
  | .var name, _, hreads => by
      simp only [Expr.eval]
      exact hreads name (List.mem_singleton_self name)
  | .binary op left right, hcalls, hreads => by
      simp only [Expr.calls] at hcalls
      simp only [Expr.variables] at hreads
      have hleft := left.eval_relatedOn hR hV hcalls.left hreads.left
      have hright := right.eval_relatedOn hR hV hcalls.right hreads.right
      cases hdecided : op.decidedBy with
      | some decisive =>
          simp only [Expr.eval, hdecided]
          refine hR.bind hleft fun value hvalue =>
            hR.bind (hR.lift (Q := Anything) fun _ _ => trivial) fun outcome _ => ?_
          split
          · exact hR.lift fun _ hresult => hV.binary hvalue hvalue hresult
          · exact hR.bind hright fun other hother =>
              hR.lift fun _ hresult => hV.binary hvalue hother hresult
      | none =>
          simp only [Expr.eval, hdecided]
          exact hR.bind (hR.pair hleft hright) fun _ hvalues =>
            hR.lift fun _ hresult => hV.binary hvalues.1 hvalues.2 hresult
  | .unary op operand, hcalls, hreads => by
      simp only [Expr.eval]
      exact hR.bind (operand.eval_relatedOn hR hV hcalls hreads) fun _ hvalue =>
        hR.lift fun _ hresult => hV.unary hvalue hresult
  | .call callee args, hcalls, hreads => by
      simp only [Expr.calls] at hcalls
      simp only [Expr.eval]
      exact hR.bind (Expr.evalAll_relatedOn hR hV args hcalls.tail hreads) fun values hvalues =>
        hR.bind (hcalls.head hvalues.1 hvalues.2) fun _ hresults => hR.theResult hresults
  | .slice source slices, hcalls, hreads => by
      simp only [Expr.calls] at hcalls
      simp only [Expr.variables] at hreads
      simp only [Expr.eval]
      exact hR.bind (source.eval_relatedOn hR hV hcalls.left hreads.left) fun _ hvalue =>
        hR.bind (SliceExpr.evalAll_relatedOn hR hV slices hcalls.right hreads.right) fun _ _ =>
          hR.liftSized fun _ hresult => hV.read hvalue hresult
  | .concat items, hcalls, hreads => by
      simp only [Expr.eval]
      exact hR.bind (Expr.evalAll_relatedOn hR hV items hcalls hreads) fun _ hvalues =>
        hR.liftSized fun _ hresult => hV.concat hvalues.2 hresult
  | .cond test yes no, hcalls, hreads => by
      simp only [Expr.calls] at hcalls
      simp only [Expr.variables] at hreads
      simp only [Expr.eval]
      exact hR.bind (test.eval_relatedOn hR hV hcalls.left.left hreads.left.left) fun _ _ =>
        hR.select (yes.eval_relatedOn hR hV hcalls.left.right hreads.left.right)
          (no.eval_relatedOn hR hV hcalls.right hreads.right)
  | .tuple items, hcalls, hreads => by
      simp only [Expr.eval]
      exact hR.bind (Expr.evalAll_relatedOn hR hV items hcalls hreads) fun _ hvalues =>
        hR.ret (hV.tuple hvalues.2)
  | .item source index, hcalls, hreads => by
      simp only [Expr.eval]
      exact hR.bind (source.eval_relatedOn hR hV hcalls hreads) fun _ hvalue =>
        hR.lift fun _ hresult => hV.getItem hvalue hresult
  | .record fields, hcalls, hreads => by
      simp only [Expr.eval]
      exact hR.bind (Expr.evalFields_relatedOn hR hV fields hcalls hreads) fun _ hfields =>
        hR.lift fun _ hresult => hV.record hfields hresult
  | .field source name, hcalls, hreads => by
      simp only [Expr.eval]
      exact hR.bind (source.eval_relatedOn hR hV hcalls hreads) fun _ hvalue =>
        hR.lift fun _ hresult => hV.getField hvalue hresult
  | .exception name fields, hcalls, hreads => by
      simp only [Expr.eval]
      exact hR.bind (Expr.evalFields_relatedOn hR hV fields hcalls hreads) fun _ hfields =>
        hR.lift fun _ hresult => hV.exception hfields hresult

/-- There are as many values as expressions. -/
theorem Expr.evalAll_relatedOn (hR : PureRel R) (hV : ValueLaws V X) : ∀ exprs : List Expr,
    CallsRel V R calls calls' (Expr.allCalls exprs) → ReadsRel V R (Expr.allVariables exprs) →
    R (List Value) (fun values => values.length = exprs.length ∧ Value.Each V values)
      (Expr.evalAll calls exprs) (Expr.evalAll calls' exprs)
  | [], _, _ => by
      simp only [Expr.evalAll]
      exact hR.ret ⟨rfl, fun _ hmem => nomatch hmem⟩
  | first :: rest, hcalls, hreads => by
      simp only [Expr.allCalls] at hcalls
      simp only [Expr.allVariables] at hreads
      simp only [Expr.evalAll]
      refine hR.bind (hR.pair (first.eval_relatedOn hR hV hcalls.left hreads.left)
        (Expr.evalAll_relatedOn hR hV rest hcalls.right hreads.right)) fun values hvalues =>
          hR.ret ?_
      exact ⟨congrArg (· + 1) hvalues.2.1, List.forall_mem_cons.mpr ⟨hvalues.1, hvalues.2.2⟩⟩

theorem Expr.evalFields_relatedOn (hR : PureRel R) (hV : ValueLaws V X) :
    ∀ fields : List (String × Expr),
    CallsRel V R calls calls' (Expr.fieldsCalls fields) →
    ReadsRel V R (Expr.fieldsVariables fields) →
    R (Named Value) (Named.Each V) (Expr.evalFields calls fields)
      (Expr.evalFields calls' fields)
  | [], _, _ => by
      simp only [Expr.evalFields]
      exact hR.ret fun _ hmem => nomatch hmem
  | (name, first) :: rest, hcalls, hreads => by
      simp only [Expr.fieldsCalls] at hcalls
      simp only [Expr.fieldsVariables] at hreads
      simp only [Expr.evalFields]
      exact hR.bind (first.eval_relatedOn hR hV hcalls.left hreads.left) fun _ hvalue =>
        hR.bind (Expr.evalFields_relatedOn hR hV rest hcalls.right hreads.right) fun _ hvalues =>
          hR.ret (List.forall_mem_cons.mpr ⟨hvalue, hvalues⟩)

theorem SliceExpr.eval_relatedOn (hR : PureRel R) (hV : ValueLaws V X) :
    ∀ slice : SliceExpr, CallsRel V R calls calls' slice.calls →
    ReadsRel V R slice.variables →
    R (Value × Value) Anything (slice.eval calls) (slice.eval calls')
  | .single index, hcalls, hreads => by
      simp only [SliceExpr.eval]
      exact hR.bind (index.eval_relatedOn hR hV hcalls hreads) fun _ _ => hR.ret trivial
  | .range high low, hcalls, hreads => by
      simp only [SliceExpr.calls] at hcalls
      simp only [SliceExpr.variables] at hreads
      simp only [SliceExpr.eval]
      exact hR.bind (hR.pair (high.eval_relatedOn hR hV hcalls.left hreads.left)
        (low.eval_relatedOn hR hV hcalls.right hreads.right)) fun _ _ =>
          hR.bind (Q := Anything) (hR.lift fun _ _ => trivial) fun _ _ => hR.ret trivial
  | .length start length, hcalls, hreads => by
      simp only [SliceExpr.calls] at hcalls
      simp only [SliceExpr.variables] at hreads
      simp only [SliceExpr.eval]
      exact hR.weaken (hR.pair (start.eval_relatedOn hR hV hcalls.left hreads.left)
        (length.eval_relatedOn hR hV hcalls.right hreads.right)) fun _ _ => trivial

theorem SliceExpr.evalAll_relatedOn (hR : PureRel R) (hV : ValueLaws V X) :
    ∀ slices : List SliceExpr,
    CallsRel V R calls calls' (SliceExpr.allCalls slices) →
    ReadsRel V R (SliceExpr.allVariables slices) →
    R (List (Value × Value)) Anything (SliceExpr.evalAll calls slices)
      (SliceExpr.evalAll calls' slices)
  | [], _, _ => by
      simp only [SliceExpr.evalAll]
      exact hR.ret trivial
  | first :: rest, hcalls, hreads => by
      simp only [SliceExpr.allCalls] at hcalls
      simp only [SliceExpr.allVariables] at hreads
      simp only [SliceExpr.evalAll]
      exact hR.bind (first.eval_relatedOn hR hV hcalls.left hreads.left) fun _ _ =>
        hR.bind (SliceExpr.evalAll_relatedOn hR hV rest hcalls.right hreads.right) fun _ _ =>
          hR.ret trivial

end

end Pure

section Expressions

variable {V X : Value → Prop} {R : EvalRel} {calls calls' : Calls}

theorem Expr.eval_related (hR : ExprRel V R) (hV : ValueLaws V X) (expr : Expr)
    (hcalls : CallsRel V R calls calls' expr.calls) :
    R Value V (expr.eval calls) (expr.eval calls') :=
  Expr.eval_relatedOn hR.toPureRel hV expr hcalls (.of_exprRel hR)

theorem Expr.evalAll_related (hR : ExprRel V R) (hV : ValueLaws V X) (exprs : List Expr)
    (hcalls : CallsRel V R calls calls' (Expr.allCalls exprs)) :
    R (List Value) (fun values => values.length = exprs.length ∧ Value.Each V values)
      (Expr.evalAll calls exprs) (Expr.evalAll calls' exprs) :=
  Expr.evalAll_relatedOn hR.toPureRel hV exprs hcalls (.of_exprRel hR)

theorem SliceExpr.evalAll_related (hR : ExprRel V R) (hV : ValueLaws V X) (slices : List SliceExpr)
    (hcalls : CallsRel V R calls calls' (SliceExpr.allCalls slices)) :
    R (List (Value × Value)) Anything (SliceExpr.evalAll calls slices)
      (SliceExpr.evalAll calls' slices) :=
  SliceExpr.evalAll_relatedOn hR.toPureRel hV slices hcalls (.of_exprRel hR)

mutual

theorem Ty.default_related (hR : ExprRel V R) (hV : ValueLaws V X) :
    ∀ ty : Ty, CallsRel V R calls calls' ty.calls →
    R Value V (ty.default calls) (ty.default calls')
  | .integer, _ => by
      simp only [Ty.default]
      exact hR.ret (hV.int 0)
  | .boolean, _ => by
      simp only [Ty.default]
      exact hR.ret (hV.bool false)
  | .bits width, hcalls => by
      simp only [Ty.default]
      exact hR.bind (Expr.eval_related hR hV width hcalls) fun _ hvalue =>
        hR.lift fun _ hresult => hV.zeros hvalue hresult
  | .string, _ => by
      simp only [Ty.default]
      exact hR.ret (hV.str "")
  | .tuple items, hcalls => by
      simp only [Ty.default]
      exact hR.bind (Ty.defaultAll_related hR hV items hcalls) fun _ hvalues =>
        hR.ret (hV.tuple hvalues)
  | .record fields, hcalls => by
      simp only [Ty.default]
      exact hR.bind (Ty.defaultFields_related hR hV fields hcalls) fun _ hfields =>
        hR.lift fun _ hresult => hV.record hfields hresult
  | .exception fields, _ => by
      simp only [Ty.default]
      exact hR.fault
  | .named name, _ => by
      simp only [Ty.default]
      exact hR.fault

theorem Ty.defaultAll_related (hR : ExprRel V R) (hV : ValueLaws V X) : ∀ types : List Ty,
    CallsRel V R calls calls' (Ty.allCalls types) →
    R (List Value) (Value.Each V) (Ty.defaultAll calls types) (Ty.defaultAll calls' types)
  | [], _ => by
      simp only [Ty.defaultAll]
      exact hR.ret fun _ hmem => nomatch hmem
  | first :: rest, hcalls => by
      simp only [Ty.allCalls] at hcalls
      simp only [Ty.defaultAll]
      exact hR.bind (first.default_related hR hV hcalls.left) fun _ hvalue =>
        hR.bind (Ty.defaultAll_related hR hV rest hcalls.right) fun _ hvalues =>
          hR.ret (List.forall_mem_cons.mpr ⟨hvalue, hvalues⟩)

theorem Ty.defaultFields_related (hR : ExprRel V R) (hV : ValueLaws V X) :
    ∀ fields : List (String × Ty),
    CallsRel V R calls calls' (Ty.fieldsCalls fields) →
    R (Named Value) (Named.Each V) (Ty.defaultFields calls fields)
      (Ty.defaultFields calls' fields)
  | [], _ => by
      simp only [Ty.defaultFields]
      exact hR.ret fun _ hmem => nomatch hmem
  | (name, first) :: rest, hcalls => by
      simp only [Ty.fieldsCalls] at hcalls
      simp only [Ty.defaultFields]
      exact hR.bind (first.default_related hR hV hcalls.left) fun _ hvalue =>
        hR.bind (Ty.defaultFields_related hR hV rest hcalls.right) fun _ hvalues =>
          hR.ret (List.forall_mem_cons.mpr ⟨hvalue, hvalues⟩)

end

/-- The initial value of a declaration calls nothing else than its parts do,
however the calls of both are put in order. -/
theorem Eval.initialValue_related (hR : ExprRel V R) (hV : ValueLaws V X) {what : String}
    {ty : Option Ty} {init : Option Expr}
    (hty : CallsRel V R calls calls' (Ty.callsOf? ty))
    (hinit : CallsRel V R calls calls' (Expr.callsOf? init)) :
    R Value V (Eval.initialValue calls what ty init) (Eval.initialValue calls' what ty init) := by
  cases init with
  | some init => exact Expr.eval_related hR hV init hinit
  | none =>
      cases ty with
      | some ty => exact Ty.default_related hR hV ty hty
      | none => exact hR.fault

theorem Target.read_related (hR : ExprRel V R) (hV : ValueLaws V X) : ∀ target : Target,
    CallsRel V R calls calls' target.calls →
    R Value V (target.read calls) (target.read calls')
  | .discard, _ => by
      simp only [Target.read]
      exact hR.fault
  | .var name, _ => by
      simp only [Target.read]
      exact hR.readVariable
  | .field whole name, hcalls => by
      simp only [Target.read]
      exact hR.bind (whole.read_related hR hV hcalls) fun _ hvalue =>
        hR.lift fun _ hresult => hV.getField hvalue hresult
  | .item whole index, hcalls => by
      simp only [Target.read]
      exact hR.bind (whole.read_related hR hV hcalls) fun _ hvalue =>
        hR.lift fun _ hresult => hV.getItem hvalue hresult
  | .slice whole slices, hcalls => by
      simp only [Target.calls] at hcalls
      simp only [Target.read]
      exact hR.bind (SliceExpr.evalAll_related hR hV slices hcalls.right) fun _ _ =>
        hR.bind (whole.read_related hR hV hcalls.left) fun _ hvalue =>
          hR.liftSized fun _ hresult => hV.read hvalue hresult

end Expressions

/-! ## Statements -/

section Statements

variable {V X : Value → Prop} {E R : EvalRel} {calls calls' : Calls} {left right : Context}

theorem Target.assign_related (hR : StepRel V X E R) (hV : ValueLaws V X) :
    ∀ (target : Target) {value : Value}, V value → CallsRel V E calls calls' target.calls →
    R Unit Anything (target.assign calls value) (target.assign calls' value)
  | .discard, _, _, _ => by
      simp only [Target.assign]
      exact hR.ret trivial
  | .var name, _, hvalue, _ => by
      simp only [Target.assign]
      exact hR.writeVariable hvalue
  | .field whole name, _, hvalue, hcalls => by
      simp only [Target.assign]
      exact hR.bind (hR.embed (Target.read_related hR.expr hV whole hcalls)) fun _ hwhole =>
        hR.bind (hR.lift fun _ hresult => hV.setField hwhole hvalue hresult) fun _ hupdated =>
          whole.assign_related hR hV hupdated hcalls
  | .item whole index, _, hvalue, hcalls => by
      simp only [Target.assign]
      exact hR.bind (hR.embed (Target.read_related hR.expr hV whole hcalls)) fun _ hwhole =>
        hR.bind (hR.lift fun _ hresult => hV.setItem hwhole hvalue hresult) fun _ hupdated =>
          whole.assign_related hR hV hupdated hcalls
  | .slice whole slices, _, hvalue, hcalls => by
      simp only [Target.calls] at hcalls
      simp only [Target.assign]
      exact hR.bind (hR.embed (SliceExpr.evalAll_related hR.expr hV slices hcalls.right)) fun _ _ =>
        hR.bind (hR.embed (Target.read_related hR.expr hV whole hcalls.left)) fun _ hwhole =>
          hR.bind (hR.lift fun _ hresult => hV.write hvalue hwhole hresult) fun _ hupdated =>
            whole.assign_related hR hV hupdated hcalls.left

mutual

theorem Stmt.exec_related (hR : StepRel V X E R) (hV : ValueLaws V X)
    (hloop : LoopRel R left right) : ∀ stmt : Stmt, CallsRel V E left.calls right.calls stmt.calls →
    R Flow (Flow.Returns V) (stmt.exec left) (stmt.exec right)
  | .pass, _ => by
      simp only [Stmt.exec]
      exact hR.ret trivial
  | .block stmts, hcalls => by
      simp only [Stmt.exec]
      exact hR.inBlock (Stmt.execAll_related hR hV hloop stmts hcalls)
  | .declare name ty init, hcalls => by
      simp only [Stmt.calls] at hcalls
      simp only [Stmt.exec]
      exact hR.bind (hR.embed (Eval.initialValue_related hR.expr hV hcalls.left hcalls.right))
        fun _ hvalue => hR.bind (hR.declareLocal hvalue) fun _ _ => hR.ret trivial
  | .assign target value, hcalls => by
      simp only [Stmt.calls] at hcalls
      simp only [Stmt.exec]
      exact hR.bind (hR.embed (Expr.eval_related hR.expr hV value hcalls.right)) fun _ hvalue =>
        hR.bind (Target.assign_related hR hV target hvalue hcalls.left) fun _ _ =>
          hR.ret trivial
  | .call callee args, hcalls => by
      simp only [Stmt.calls] at hcalls
      simp only [Stmt.exec]
      exact hR.bind (hR.embed (Expr.evalAll_related hR.expr hV args hcalls.tail)) fun _ hvalues =>
        hR.bind (hR.embed (hcalls.head hvalues.1 hvalues.2)) fun _ _ => hR.ret trivial
  | .ret none, _ => by
      simp only [Stmt.exec]
      exact hR.ret trivial
  | .ret (some value), hcalls => by
      simp only [Stmt.exec]
      exact hR.bind (hR.embed (Expr.eval_related hR.expr hV value hcalls)) fun _ hvalue =>
        hR.ret hvalue
  | .branch test yes no, hcalls => by
      simp only [Stmt.calls] at hcalls
      simp only [Stmt.exec]
      exact hR.bind (hR.embed (Expr.eval_related hR.expr hV test hcalls.left.left)) fun _ _ =>
        hR.select (hR.inBlock (yes.exec_related hR hV hloop hcalls.left.right))
          (hR.inBlock (no.exec_related hR hV hloop hcalls.right))
  | .count index first last down body, hcalls => by
      simp only [Stmt.calls] at hcalls
      simp only [Stmt.exec]
      exact hR.bind (hR.embed (hR.expr.pair (Expr.eval_related hR.expr hV first hcalls.left.left)
        (Expr.eval_related hR.expr hV last hcalls.left.right))) fun _ _ =>
          hR.countedLoop hV hloop (body.exec_related hR hV hloop hcalls.right)
  | .loop test body, hcalls => by
      simp only [Stmt.calls] at hcalls
      simp only [Stmt.exec]
      exact hR.testedLoop hloop (hR.embed (Expr.eval_related hR.expr hV test hcalls.left))
        (body.exec_related hR hV hloop hcalls.right)
  | .assert test, hcalls => by
      simp only [Stmt.exec]
      exact hR.bind (hR.embed (Expr.eval_related hR.expr hV test hcalls)) fun _ _ =>
        hR.select (hR.ret trivial) hR.fault
  | .raise none, _ => by
      simp only [Stmt.exec]
      exact hR.raiseAgain
  | .raise (some exc), hcalls => by
      simp only [Stmt.exec]
      exact hR.bind (hR.embed (Expr.eval_related hR.expr hV exc hcalls)) fun _ hexc =>
        hR.raise hV hexc
  | .attempt body catchers none, hcalls => by
      simp only [Stmt.calls] at hcalls
      simp only [Stmt.exec]
      refine hR.handling (body.exec_related hR hV hloop hcalls.left) fun exc hexc =>
        hR.bind (hR.lift (Q := Anything) fun _ _ => trivial) fun name _ => ?_
      exact Catcher.handler?_related hR hV hloop hexc catchers hcalls.right (hR.throwing hexc)
  | .attempt body catchers (some otherwise), hcalls => by
      simp only [Stmt.calls] at hcalls
      simp only [Stmt.exec]
      refine hR.handling (body.exec_related hR hV hloop hcalls.left.left) fun exc hexc =>
        hR.bind (hR.lift (Q := Anything) fun _ _ => trivial) fun name _ => ?_
      exact Catcher.handler?_related hR hV hloop hexc catchers hcalls.left.right
        (hR.runHandler hV hexc (otherwise.exec_related hR hV hloop hcalls.right))

theorem Stmt.execAll_related (hR : StepRel V X E R) (hV : ValueLaws V X)
    (hloop : LoopRel R left right) : ∀ stmts : List Stmt,
    CallsRel V E left.calls right.calls (Stmt.allCalls stmts) →
    R Flow (Flow.Returns V) (Stmt.execAll left stmts) (Stmt.execAll right stmts)
  | [], _ => by
      simp only [Stmt.execAll]
      exact hR.ret trivial
  | first :: rest, hcalls => by
      simp only [Stmt.allCalls] at hcalls
      simp only [Stmt.execAll]
      apply hR.bind (first.exec_related hR hV hloop hcalls.left)
      intro flow hflow
      cases flow with
      | next => exact Stmt.execAll_related hR hV hloop rest hcalls.right
      | returned value => exact hR.ret hflow

/-- The first catcher that names an exception runs on both sides, or what runs
without one. -/
theorem Catcher.handler?_related (hR : StepRel V X E R) (hV : ValueLaws V X)
    (hloop : LoopRel R left right) {exc : Value} {name : String} (hexc : X exc)
    {otherwise otherwise' : Eval Flow} : ∀ catchers : List Catcher,
    CallsRel V E left.calls right.calls (Catcher.allCalls catchers) →
    R Flow (Flow.Returns V) otherwise otherwise' →
    R Flow (Flow.Returns V) ((Catcher.handler? left exc name catchers).getD otherwise)
      ((Catcher.handler? right exc name catchers).getD otherwise')
  | [], _, hotherwise => by
      simp only [Catcher.handler?, Option.getD_none]
      exact hotherwise
  | .mk binding exception body :: rest, hcalls, hotherwise => by
      simp only [Catcher.allCalls] at hcalls
      simp only [Catcher.handler?]
      split
      · exact hR.runHandler hV hexc (body.exec_related hR hV hloop hcalls.left)
      · exact Catcher.handler?_related hR hV hloop hexc rest hcalls.right hotherwise

end

end Statements

/-! ## Calls -/

section Calls

variable {V X : Value → Prop} {E R : EvalRel} (hR : ActivationRel V X E R) (hV : ValueLaws V X)

include hR

theorem Eval.bindParameters_related : ∀ (args : List (String × Ty)) {values : List Value},
    Value.Each V values →
    R Unit Anything (Eval.bindParameters args values) (Eval.bindParameters args values)
  | [], _, _ => by
      simp only [Eval.bindParameters]
      exact hR.ret trivial
  | _ :: _, [], _ => by
      simp only [Eval.bindParameters]
      exact hR.ret trivial
  | (name, _) :: args, value :: values, hvalues => by
      obtain ⟨hvalue, hrest⟩ := List.forall_mem_cons.mp hvalues
      simp only [Eval.bindParameters]
      exact hR.bind (hR.declareLocal hvalue) fun _ _ =>
        Eval.bindParameters_related args hrest

theorem Eval.inFrame_related {name : String} {args : List (String × Ty)} {values : List Value}
    {body body' : Eval Flow} (hvalues : Value.Each V values)
    (hbody : R Flow (Flow.Returns V) body body') :
    E (List Value) (Value.Each V) (Eval.inFrame name args values body)
      (Eval.inFrame name args values body') := by
  rw [Eval.inFrame, Eval.inFrame]
  refine hR.expr.bind (hR.inActivation (hR.bind (Eval.bindParameters_related hR args hvalues)
    fun _ _ => hbody)) fun flow hflow => hR.expr.ret ?_
  match flow, hflow with
  | .next, _ => exact fun _ hmem => nomatch hmem
  | .returned none, _ => exact fun _ hmem => nomatch hmem
  | .returned (some value), hvalue => exact List.forall_mem_singleton.mpr hvalue

include hV

theorem Eval.callPrimitive_related {name : String} {values : List Value}
    (hvalues : Value.Each V values) :
    E (List Value) (Value.Each V) (Eval.callPrimitive name values)
      (Eval.callPrimitive name values) := by
  have hpure := hR.expr.toPureRel
  rw [Eval.callPrimitive]
  cases Primitive.ofName? name with
  | none => exact hpure.fault
  | some primitive =>
      exact hpure.bind (hpure.lift fun _ hreply => hV.primitive hvalues hreply) fun _ hresults =>
        hpure.bind hR.print fun _ _ => hpure.ret hresults

/-- One call, whose body may run in two ways. -/
theorem Eval.call_related {subprograms : String → Option Subprogram} {left right : Context}
    {caller : Caller} {name : String} {values : List Value} (hvalues : Value.Each V values)
    (hbody : ∀ (decl : Subprogram) (body : Stmt), subprograms name = some decl →
      decl.body = .stmt body → R Flow (Flow.Returns V) (body.exec left) (body.exec right)) :
    E (List Value) (Value.Each V) (Eval.call subprograms left caller name values)
      (Eval.call subprograms right caller name values) := by
  rw [Eval.call, Eval.call]
  cases hdecl : subprograms name with
  | none => exact hR.expr.fault
  | some decl =>
      cases hkind : decl.body with
      | primitive primitive => simpa only [hkind] using Eval.callPrimitive_related hR hV hvalues
      | stmt body =>
          simp only [hkind]
          split
          · exact Eval.inFrame_related hR hvalues (hbody decl body hdecl hkind)
          · exact hR.expr.fault

/-- Calls within a bound, by recursion on it; the bound may grow if giving up is
related to everything. -/
theorem Eval.callWithin_related {subprograms : String → Option Subprogram}
    {unroll unroll' bound bound' : Nat} (hbound : BoundRel E bound bound')
    (hunroll : ∀ finished, R Unit Anything (Eval.checkUnroll unroll finished)
      (Eval.checkUnroll unroll' finished))
    {caller : Caller} {name : String} {values : List Value} (hvalues : Value.Each V values) :
    E (List Value) (Value.Each V) (Eval.callWithin subprograms unroll bound caller name values)
      (Eval.callWithin subprograms unroll' bound' caller name values) := by
  induction bound generalizing bound' caller name values with
  | zero =>
      rcases hbound with rfl | ⟨_, hexhaust⟩
      · exact hR.exhaustCall
      · exact hexhaust _ _ _
  | succ bound ih =>
      obtain ⟨rest, rfl, hrest⟩ := hbound.of_succ
      rw [Eval.callWithin, Eval.callWithin]
      apply Eval.call_related hR hV hvalues
      intro decl body _ _
      exact Stmt.exec_related hR.toStepRel hV ⟨hrest.mono hR.embed, hunroll⟩ body
        (.of_forall fun _ _ _ hvalues => ih hrest hvalues)

end Calls

/-! ## Properties of single computations -/

section Activation

variable {V X : Value → Prop} {E P : (α : Type) → (α → Prop) → Eval α → Prop}
variable (hP : ActivationRel V X (.single E) (.single P)) (hV : ValueLaws V X) {unroll : Nat}
variable (hunroll : ∀ finished, P Unit Anything (Eval.checkUnroll unroll finished))
variable (subprograms : String → Option Subprogram) (bound : Nat)

include hP hV hunroll

theorem Eval.callWithin_activation {caller : Caller} {name : String} {values : List Value}
    (hvalues : Value.Each V values) :
    E (List Value) (Value.Each V) (callWithin subprograms unroll bound caller name values) :=
  let calls := callWithin subprograms unroll bound
  have hrelated : EvalRel.single E (List Value) (Value.Each V) (calls caller name values)
      (calls caller name values) :=
    callWithin_related hP hV (.refl _ bound) hunroll hvalues
  hrelated

theorem Eval.callsRel_activation (sites : List Call) :
    CallsRel V (.single E) (callWithin subprograms unroll bound)
      (callWithin subprograms unroll bound) sites :=
  .of_forall fun _ _ _ hvalues =>
    callWithin_activation hP hV hunroll subprograms bound hvalues

theorem Expr.eval_activation (expr : Expr) :
    E Value V (expr.eval (Eval.callWithin subprograms unroll bound)) :=
  Expr.eval_related hP.expr hV expr (Eval.callsRel_activation hP hV hunroll subprograms bound _)

theorem Stmt.exec_activation (rounds : Nat) (stmt : Stmt) :
    P Flow (Flow.Returns V)
      (stmt.exec ⟨Eval.callWithin subprograms unroll bound, rounds, unroll⟩) :=
  let context : Context := ⟨Eval.callWithin subprograms unroll bound, rounds, unroll⟩
  have hloop : LoopRel (.single P) context context := ⟨.refl _ rounds, hunroll⟩
  Stmt.exec_related hP.toStepRel hV hloop stmt
    (Eval.callsRel_activation hP hV hunroll subprograms bound _)

end Activation

section Single

variable {V X : Value → Prop} {P : (α : Type) → (α → Prop) → Eval α → Prop}
variable (hP : CallRel V X (.single P)) (hV : ValueLaws V X) {unroll : Nat}
variable (hunroll : ∀ finished, P Unit Anything (Eval.checkUnroll unroll finished))
variable (subprograms : String → Option Subprogram) (bound : Nat)

include hP hV hunroll

theorem Eval.callWithin_single {caller : Caller} {name : String} {values : List Value}
    (hvalues : Value.Each V values) :
    P (List Value) (Value.Each V) (callWithin subprograms unroll bound caller name values) :=
  callWithin_activation hP.activationRel hV hunroll subprograms bound hvalues

theorem Eval.callsRel_single (sites : List Call) :
    CallsRel V (.single P) (callWithin subprograms unroll bound)
      (callWithin subprograms unroll bound) sites :=
  callsRel_activation hP.activationRel hV hunroll subprograms bound sites

theorem Expr.eval_single (expr : Expr) :
    P Value V (expr.eval (Eval.callWithin subprograms unroll bound)) :=
  expr.eval_activation hP.activationRel hV hunroll subprograms bound

theorem Stmt.exec_single (rounds : Nat) (stmt : Stmt) :
    P Flow (Flow.Returns V)
      (stmt.exec ⟨Eval.callWithin subprograms unroll bound, rounds, unroll⟩) :=
  stmt.exec_activation hP.activationRel hV hunroll subprograms bound rounds

end Single

/-! ## Runs -/

section Runs

variable {V X : Value → Prop} {R : EvalRel} {calls calls' : Calls}

theorem Session.callMain_related (hR : ExprRel V R)
    (hmain : R (List Value) (Value.Each V) (calls .run entryPoint []) (calls' .run entryPoint [])) :
    R Value V (Session.callMain calls) (Session.callMain calls') := by
  rw [Session.callMain, Session.callMain]
  apply hR.bind hmain
  intro results hresults
  split
  · exact hR.ret (hresults _ (List.mem_singleton_self _))
  · exact hR.fault

theorem Session.initGlobals_related (hR : GlobalRel V X R) (hV : ValueLaws V X) :
    ∀ globals : List Global, CallsRel V R calls calls' (globals.flatMap Global.calls) →
    R Unit Anything (Session.initGlobals calls globals) (Session.initGlobals calls' globals)
  | [], _ => by
      simp only [Session.initGlobals]
      exact hR.ret trivial
  | decl :: rest, hcalls => by
      rw [List.flatMap_cons] at hcalls
      have hdecl : CallsRel V R calls calls' (Expr.callsOf? decl.init ++ Ty.callsOf? decl.ty) :=
        hcalls.left
      simp only [Session.initGlobals]
      exact hR.bind (Eval.initialValue_related hR.toExprRel hV hdecl.right hdecl.left)
        fun _ hvalue => hR.bind (hR.declareGlobal hvalue) fun _ _ =>
          Session.initGlobals_related hR hV rest hcalls.right

variable (hR : RunRel V X R) (hV : ValueLaws V X)

include hR hV

theorem Session.runGlobalsAndMain_related {globals : List Global}
    (hcalls : CallsRel V R calls calls' (globals.flatMap Global.calls))
    (hmain : R (List Value) (Value.Each V) (calls .run entryPoint []) (calls' .run entryPoint [])) :
    R Value V (Session.runGlobalsAndMain calls globals)
      (Session.runGlobalsAndMain calls' globals) := by
  rw [Session.runGlobalsAndMain, Session.runGlobalsAndMain]
  exact hR.handling (hR.bind (hR.whileInitialising
    (Session.initGlobals_related hR.toGlobalRel hV globals hcalls)) fun _ _ =>
      Session.callMain_related hR.toExprRel hmain) fun _ _ => hR.fault

/-- Whole runs within a bound, which may grow as in `Eval.callWithin_related`. -/
theorem Session.runWithin_related (subprograms : String → Option Subprogram)
    (globals : List Global) {unroll unroll' bound bound' : Nat}
    (hbound : BoundRel R bound bound')
    (hunroll : ∀ finished, R Unit Anything (Eval.checkUnroll unroll finished)
      (Eval.checkUnroll unroll' finished)) :
    R Value V (Session.runGlobalsAndMain (Eval.callWithin subprograms unroll bound) globals)
      (Session.runGlobalsAndMain (Eval.callWithin subprograms unroll' bound') globals) :=
  have hcalled := hR.toCallRel.activationRel
  Session.runGlobalsAndMain_related hR hV
    (.of_forall fun _ _ _ hvalues => Eval.callWithin_related hcalled hV hbound hunroll hvalues)
    (Eval.callWithin_related hcalled hV hbound hunroll fun _ hmem => nomatch hmem)

end Runs

end ArchSpec
