import ArchSpec.Proofs.StackDiscipline
import ArchSpec.Proofs.Storage.Locals

/-!
# Locals of a block

What a statement declares is gone after it: blocks, branches, rounds of a loop and
handlers run in blocks of their own, and a call in a frame of its own.  The body of
a statement with handlers is the exception.  It runs in the block around it, so a
declaration that is itself the body leaves its variable there, or replaces one of
the same name.  All other changes to the locals of an activation are assignments.
-/

namespace ArchSpec

mutual

/-- The variables that are assigned in a statement. -/
def Stmt.assigned : Stmt → List String
  | .pass => []
  | .block stmts => Stmt.allAssigned stmts
  | .declare .. => []
  | .assign target _ => target.root?.toList
  | .call .. => []
  | .ret _ => []
  | .branch _ yes no => yes.assigned ++ no.assigned
  | .count _ _ _ _ body => body.assigned
  | .loop _ body => body.assigned
  | .assert _ => []
  | .raise _ => []
  | .attempt body catchers none => body.assigned ++ Catcher.allAssigned catchers
  | .attempt body catchers (some otherwise) =>
      body.assigned ++ Catcher.allAssigned catchers ++ otherwise.assigned

def Stmt.allAssigned : List Stmt → List String
  | [] => []
  | first :: rest => first.assigned ++ Stmt.allAssigned rest

def Catcher.allAssigned : List Catcher → List String
  | [] => []
  | .mk _ _ body :: rest => body.assigned ++ Catcher.allAssigned rest

end

/-- The variable that a statement declares in the block around it, if its value can
be had. -/
def Stmt.declared (context : Context) : Stmt → State → Option (String × Value)
  | .declare name ty init, state =>
      match (Eval.initialValue context.calls ("declaration of " ++ name) ty init state).1 with
      | .done value => some (name, value)
      | _ => none
  | .attempt body _ _, state => body.declared context state
  | _, _ => none

variable {α β : Type} {R R' : Frame Value → Frame Value → Prop}

namespace Eval

open ArchSpec.Frame

/-- A computation from `before` may end like this: without a fault, all that it has
changed of the frames is the current one, as a relation allows. -/
structure EndsWithin (R : Frame Value → Frame Value → Prop) (Q : α → Prop) (before : State)
    (run : Outcome α × State) : Prop where
  value : ∀ value, run.1 = .done value → Q value
  frames : run.1.Nonfatal → OnTop R before.storage.frames run.2.storage.frames

def Keeps (R : Frame Value → Frame Value → Prop) (Q : α → Prop) (body : Eval α) : Prop :=
  ∀ before, EndsWithin R Q before (body before)

namespace EndsWithin

variable {Q : α → Prop} {Q' : β → Prop} {body : Eval α} {before between : State}
variable {run : Outcome α × State}

theorem mono (hrun : EndsWithin R Q before run)
    (himp : ∀ frame changed, R frame changed → R' frame changed) : EndsWithin R' Q before run :=
  ⟨hrun.value, fun hnonfatal => (hrun.frames hnonfatal).mono himp⟩

variable (hR : Equivalence R)

include hR

theorem of_frames_eq (hframes : run.2.storage.frames = before.storage.frames)
    (hvalue : ∀ value, run.1 = .done value → Q value) : EndsWithin R Q before run :=
  ⟨hvalue, fun _ => hframes ▸ .refl hR _⟩

theorem after_onTop (hrun : EndsWithin R Q between run)
    (hbefore : OnTop R before.storage.frames between.storage.frames) :
    EndsWithin R Q before run :=
  ⟨hrun.value, fun hnonfatal => hbefore.trans hR (hrun.frames hnonfatal)⟩

theorem bind {next : α → Eval β} (hbody : EndsWithin R Q before (body before))
    (hnext : ∀ value, Q value → Keeps R Q' (next value)) :
    EndsWithin R Q' before ((body >>= next) before) := by
  change EndsWithin R Q' before (Effect.bind body next before)
  rw [Effect.bind]
  rcases hrun : body before with ⟨outcome, between⟩
  rw [hrun] at hbody
  cases outcome with
  | done value =>
      exact (hnext value (hbody.value value rfl) between).after_onTop hR (hbody.frames trivial)
  | thrown exc => exact ⟨by simp, hbody.frames⟩
  | failed | overflowed | exhausted => exact ⟨by simp, False.elim⟩

theorem handling {handler : Value → Eval α} (hbody : EndsWithin R Q before (body before))
    (hhandler : ∀ exc, Keeps R Q (handler exc)) :
    EndsWithin R Q before (Effect.handling body handler before) := by
  rw [Effect.handling]
  rcases hrun : body before with ⟨outcome, between⟩
  rw [hrun] at hbody
  cases outcome with
  | thrown exc => exact (hhandler exc between).after_onTop hR (hbody.frames trivial)
  | done | failed | overflowed | exhausted => exact hbody

end EndsWithin

namespace Keeps

variable {Q : α → Prop} {Q' : β → Prop} {body : Eval α} {assigned : List String}

theorem mono (hbody : Keeps R Q body) (himp : ∀ frame changed, R frame changed → R' frame changed) :
    Keeps R' Q body := fun before => (hbody before).mono himp

/-- What is left after a computation counts from where it was entered. -/
theorem within {enter leave : State → State}
    (hbody : ∀ before, EndsWithin R Q before
      ((body (enter before)).1, leave (body (enter before)).2)) :
    Keeps R Q (Effect.within enter leave body) := by
  intro before
  have hend := hbody before
  rw [Effect.within]
  rcases hrun : body (enter before) with ⟨outcome, after⟩
  rw [hrun] at hend
  cases outcome with
  | done | thrown => exact hend
  | failed | overflowed | exhausted => exact ⟨by simp, False.elim⟩

theorem whileHandling (exc : Value) (hbody : Keeps R Q body) :
    Keeps R Q (Eval.whileHandling exc body) :=
  within fun before =>
    have hend := hbody (before.pushHandled exc)
    ⟨hend.value, hend.frames⟩

/-- A block of its own may change in any way. -/
theorem inBlock (hbody : Keeps (SameOuter assigned) Q body) :
    Keeps (SameLocals assigned) Q (Eval.inBlock body) :=
  within fun before =>
    have hend := hbody (before.onStorage Storage.pushBlock)
    ⟨hend.value, fun hnonfatal => Storage.onTop_popBlock (hend.frames hnonfatal)⟩

/-- An activation of its own is gone with its frame. -/
theorem inActivation (subprogram : String) (hbody : Disciplined Q body) :
    Keeps Eq Q (Eval.inActivation subprogram body) := by
  intro before
  by_cases hfull : before.storage.Full subprogram
  · rw [inActivation_of_full hfull]
    exact ⟨nofun, False.elim⟩
  · rw [inActivation_of_not_full hfull]
    refine within (fun before => ?_) before
    have hend := hbody (before.onStorage (·.pushFrame subprogram))
    refine ⟨hend.value, fun hnonfatal => ?_⟩
    have hframes := Storage.frames_popFrame (hend.stack hnonfatal).frames
    exact hframes ▸ .refl eq_equivalence before.storage.frames

theorem writeVariable {name : String} (value : Value) (hname : name ∈ assigned) :
    Keeps (SameLocals assigned) Anything (Eval.writeVariable name value) := by
  intro before
  refine ⟨fun _ _ => trivial, ?_⟩
  rw [Eval.writeVariable]
  cases hassign : before.storage.assign name value with
  | some assignment => exact fun _ => Storage.onTop_of_assign hname hassign
  | none => exact False.elim

theorem declareLocal (name : String) (value : Value) :
    Keeps (SameOuter assigned) Anything (Eval.declareLocal name value) := by
  intro before
  refine ⟨fun _ _ => trivial, fun _ => ?_⟩
  refine (before.storage.onTop_declare name value).mono ?_
  rintro frame _ rfl
  exact sameOuter_declare assigned frame name value

variable (hR : Equivalence R)

include hR

theorem bind {next : α → Eval β} (hbody : Keeps R Q body)
    (hnext : ∀ value, Q value → Keeps R Q' (next value)) : Keeps R Q' (body >>= next) :=
  fun before => (hbody before).bind hR hnext

theorem both {second : Eval β} (hbody : Keeps R Q body) (hsecond : Keeps R Q' second) :
    Keeps R (fun values : α × β => Q values.1 ∧ Q' values.2) (Effect.both body second) := by
  intro before
  have hleft := hbody before
  have hright := hsecond (body before).2
  by_cases hover : (body before).1 = .overflowed
  · rw [Effect.both_of_overflowed hover]
    exact ⟨nofun, False.elim⟩
  · rw [Effect.both_of_not_overflowed hover]
    constructor
    · intro values hvalues
      obtain ⟨hfirst, hlast⟩ := Outcome.eq_done_of_both hvalues
      exact ⟨hleft.value _ hfirst, hright.value _ hlast⟩
    · intro hnonfatal
      obtain ⟨hfirst, hlast⟩ := Outcome.nonfatal_of_both hnonfatal
      exact (hleft.frames hfirst).trans hR (hright.frames hlast)

theorem of_outcome {outcome : Outcome α} (hvalue : ∀ value, outcome = .done value → Q value) :
    Keeps R Q fun state => (outcome, state) :=
  fun _ => .of_frames_eq hR rfl hvalue

theorem readVariable (name : String) : Keeps R Anything (Eval.readVariable name) := by
  intro before
  refine .of_frames_eq hR ?_ fun _ _ => trivial
  rw [Eval.readVariable]
  split <;> rfl

theorem raiseAgain : Keeps R Q (Eval.raiseAgain : Eval α) := by
  intro before
  rw [Eval.raiseAgain]
  split <;> exact .of_frames_eq hR rfl (by simp)

theorem checkUnroll (unroll finished : Nat) :
    Keeps R Anything (Eval.checkUnroll unroll finished) := by
  rw [Eval.checkUnroll]
  split <;> exact fun _ => .of_frames_eq hR rfl fun _ _ => trivial

theorem exprRel : ExprRel Anything (.single fun _ Q body => Keeps R Q body) where
  ret hvalue := of_outcome hR fun _ houtcome => by cases houtcome; exact hvalue
  bind hbody hnext := hbody.bind hR hnext
  fault := of_outcome hR nofun
  overflow := of_outcome hR nofun
  both hleft hright := hleft.both hR hright
  readVariable := readVariable hR _

theorem lift (result : Except Fault α) : Keeps R Anything (Effect.lift result) :=
  (exprRel hR).lift fun _ _ => trivial

theorem select (test : Value) {yes no : Eval α} (hyes : Keeps R Q yes) (hno : Keeps R Q no) :
    Keeps R Q (Effect.select test yes no) :=
  have hselect : EvalRel.single (fun _ Q body => Keeps R Q body) α Q (Effect.select test yes no)
      (Effect.select test yes no) := (exprRel hR).select hyes hno
  hselect

theorem pair (independent : Bool) {second : Eval β} (hbody : Keeps R Q body)
    (hsecond : Keeps R Q' second) :
    Keeps R (fun values : α × β => Q values.1 ∧ Q' values.2)
      (Eval.pair independent body second) :=
  have hpair : EvalRel.single (fun _ Q body => Keeps R Q body) (α × β)
      (fun values => Q values.1 ∧ Q' values.2) (Eval.pair independent body second)
      (Eval.pair independent body second) := (exprRel hR).pair hbody hsecond
  hpair

end Keeps

/-! ## Calls -/

theorem keeps_callPrimitive (name : String) (values : List Value) :
    Keeps Eq Anything (callPrimitive name values) := by
  have hpure := (Keeps.exprRel eq_equivalence).toPureRel
  rw [callPrimitive]
  cases Primitive.ofName? name with
  | none => exact hpure.fault
  | some primitive =>
      have hprint : ∀ text, Keeps Eq Anything (Effect.modify (State.print text)) :=
        fun _ _ => .of_frames_eq eq_equivalence rfl fun _ _ => trivial
      exact (Keeps.lift eq_equivalence _).bind eq_equivalence fun reply _ =>
        (hprint reply.printed).bind eq_equivalence fun _ _ => hpure.ret trivial

/-- A call leaves all frames as they were. -/
theorem keeps_callWithin (subprograms : String → Option Subprogram) (unroll bound : Nat)
    (caller : Caller) (name : String) (values : List Value) :
    Keeps Eq Anything (callWithin subprograms unroll bound caller name values) := by
  have hpure := (Keeps.exprRel eq_equivalence).toPureRel
  cases bound with
  | zero => exact Keeps.of_outcome eq_equivalence nofun
  | succ bound =>
      rw [callWithin, call]
      cases subprograms name with
      | none => exact hpure.fault
      | some decl =>
          simp only
          cases decl.body with
          | primitive primitive => exact keeps_callPrimitive primitive values
          | stmt body =>
              simp only
              by_cases hlength : decl.args.length = values.length
              · have hbody := disciplined_body subprograms unroll bound decl.args values body
                rw [if_pos hlength]
                exact (Keeps.inActivation name hbody).bind eq_equivalence fun _ _ =>
                  hpure.ret trivial
              · rw [if_neg hlength]
                exact hpure.fault

end Eval

/-! ## Expressions and targets -/

open Eval ArchSpec.Frame

section Expressions

variable {calls : Calls}
variable (hcalls : ∀ caller name values, Keeps Eq Anything (calls caller name values))
variable (hR : Equivalence R)

include hcalls hR

/-- What a call leaves as it was is kept up to any equivalence. -/
theorem Eval.keeps_call (caller : Caller) (name : String) (values : List Value) :
    Keeps R Anything (calls caller name values) :=
  (hcalls caller name values).mono fun frame _ hframe => hframe ▸ hR.refl frame

theorem Eval.callsRel_keeps (sites : List Call) :
    CallsRel Anything (.single fun _ Q body => Keeps R Q body) calls calls sites :=
  .of_forall fun caller name values _ =>
    (Keeps.exprRel hR).weaken (keeps_call hcalls hR caller name values) fun _ _ _ _ => trivial

theorem Expr.keeps_eval (expr : Expr) : Keeps R Anything (expr.eval calls) :=
  Expr.eval_related (Keeps.exprRel hR) .anything expr (callsRel_keeps hcalls hR _)

theorem Expr.keeps_evalAll (exprs : List Expr) : Keeps R Anything (Expr.evalAll calls exprs) :=
  (Keeps.exprRel hR).weaken (Expr.evalAll_related (Keeps.exprRel hR) .anything exprs
    (callsRel_keeps hcalls hR _)) fun _ _ => trivial

theorem SliceExpr.keeps_evalAll (slices : List SliceExpr) :
    Keeps R Anything (SliceExpr.evalAll calls slices) :=
  SliceExpr.evalAll_related (Keeps.exprRel hR) .anything slices (callsRel_keeps hcalls hR _)

theorem Eval.keeps_initialValue (what : String) (ty : Option Ty) (init : Option Expr) :
    Keeps R Anything (initialValue calls what ty init) :=
  initialValue_related (Keeps.exprRel hR) .anything (callsRel_keeps hcalls hR _)
    (callsRel_keeps hcalls hR _)

theorem Target.keeps_read (target : Target) : Keeps R Anything (target.read calls) :=
  Target.read_related (Keeps.exprRel hR) .anything target (callsRel_keeps hcalls hR _)

omit hR in
/-- Of the locals, only the root of a target is written. -/
theorem Target.keeps_assign {assigned : List String} : ∀ (target : Target) (value : Value),
    target.root?.toList ⊆ assigned →
      Keeps (SameLocals assigned) Anything (target.assign calls value)
  | .discard, _, _ => by
      simp only [Target.assign]
      exact (Keeps.exprRel (sameLocals_equivalence Value assigned)).ret trivial
  | .var name, value, hassigned => by
      simp only [Target.assign]
      exact .writeVariable value (hassigned (List.mem_singleton_self name))
  | .field whole name, value, hassigned => by
      have hR := sameLocals_equivalence Value assigned
      simp only [Target.assign]
      exact (whole.keeps_read hcalls hR).bind hR fun container _ =>
        (Keeps.lift hR _).bind hR fun updated _ =>
          whole.keeps_assign updated hassigned
  | .item whole index, value, hassigned => by
      have hR := sameLocals_equivalence Value assigned
      simp only [Target.assign]
      exact (whole.keeps_read hcalls hR).bind hR fun container _ =>
        (Keeps.lift hR _).bind hR fun updated _ =>
          whole.keeps_assign updated hassigned
  | .slice whole slices, value, hassigned => by
      have hR := sameLocals_equivalence Value assigned
      simp only [Target.assign]
      exact (SliceExpr.keeps_evalAll hcalls hR slices).bind hR fun positions _ =>
        (whole.keeps_read hcalls hR).bind hR fun container _ =>
          (Keeps.lift hR _).bind hR fun updated _ =>
            whole.keeps_assign updated hassigned

end Expressions

/-! ## Loops and handlers -/

namespace Eval

variable {assigned : List String} {body : Eval Flow}

theorem keeps_countedRounds (unroll : Nat) (down : Bool) (index : String)
    (hbody : Keeps (SameOuter assigned) Anything body) (left : Nat) (current : Int)
    (finished : Nat) :
    Keeps (SameLocals assigned) Anything
      (countedRounds unroll down index body left current finished) := by
  have hR := sameLocals_equivalence Value assigned
  induction left generalizing current finished with
  | zero => exact (Keeps.exprRel hR).ret trivial
  | succ left ih =>
      have hround : Keeps (SameLocals assigned) Anything (countedRound index current body) :=
        .inBlock ((Keeps.declareLocal index (.int current)).bind
          (sameOuter_equivalence Value assigned) fun _ _ => hbody)
      rw [countedRounds_succ]
      apply ((Keeps.checkUnroll hR unroll finished).bind hR fun _ _ => hround).bind hR
      intro flow _
      cases flow with
      | next => exact ih _ _
      | returned value => exact (Keeps.exprRel hR).ret trivial

theorem keeps_iterate (hR : Equivalence R) {step : α → Eval (α ⊕ β)}
    (hstep : ∀ current, Keeps R Anything (step current)) (rounds : Nat) (current : α) :
    Keeps R Anything (Effect.iterate step rounds current) := by
  induction rounds generalizing current with
  | zero => exact Keeps.of_outcome hR nofun
  | succ rounds ih =>
      rw [Effect.iterate_succ]
      apply (hstep current).bind hR
      intro outcome _
      cases outcome with
      | inl next => exact ih next
      | inr final => exact (Keeps.exprRel hR).ret trivial

theorem keeps_testedLoop (unroll rounds : Nat) {test : Eval Value}
    (htest : Keeps (SameLocals assigned) Anything test)
    (hbody : Keeps (SameOuter assigned) Anything body) :
    Keeps (SameLocals assigned) Anything (testedLoop unroll rounds test body) := by
  have hR := sameLocals_equivalence Value assigned
  have hpure := (Keeps.exprRel hR).toPureRel
  have hround (finished : Nat) :
      Keeps (SameLocals assigned) Anything (testedRound unroll test body finished) := by
    apply htest.bind hR
    intro value _
    apply Keeps.select hR value _ (hpure.ret trivial)
    apply (Keeps.checkUnroll hR unroll finished).bind hR
    intro _ _
    apply (Keeps.inBlock hbody).bind hR
    intro flow _
    cases flow <;> exact hpure.ret trivial
  exact keeps_iterate hR hround rounds 0

theorem keeps_runHandler (exc : Value) (binding : Option String)
    (hbody : Keeps (SameOuter assigned) Anything body) :
    Keeps (SameLocals assigned) Anything (runHandler exc binding body) := by
  have hR := sameOuter_equivalence Value assigned
  have hbinding : Keeps (SameOuter assigned) Anything (bindCaught binding exc) := by
    cases binding with
    | none => exact (Keeps.exprRel hR).ret trivial
    | some name => exact .declareLocal name exc
  exact .whileHandling exc (.inBlock (hbinding.bind hR fun _ _ => hbody))

end Eval

/-! ## Statements -/

section Statements

variable {context : Context}
variable (hcalls : ∀ caller name values, Keeps Eq Anything (context.calls caller name values))

include hcalls

/-- A variable that is declared in the block around a statement is all that the
statement has to do with locals. -/
theorem Stmt.exec_of_declared {name : String} {value : Value} : ∀ (stmt : Stmt) {before : State},
    stmt.declared context before = some (name, value) →
      (stmt.exec context before).1 = .done .next ∧
        OnTop (fun frame changed => changed = frame.declare name value) before.storage.frames
          (stmt.exec context before).2.storage.frames
  | .declare other ty init, before, hdeclared => by
      have hend := keeps_initialValue hcalls eq_equivalence ("declaration of " ++ other) ty init
        before
      simp only [Stmt.declared] at hdeclared
      simp only [Stmt.exec]
      rcases hrun : initialValue context.calls ("declaration of " ++ other) ty init before with
        ⟨outcome, between⟩
      rw [hrun] at hend hdeclared
      cases outcome with
      | thrown | failed | overflowed | exhausted => nomatch hdeclared
      | done initial =>
          cases hdeclared
          have hframes : between.storage.frames = before.storage.frames :=
            (hend.frames trivial).eq_of_eq
          rw [Effect.bind_of_done hrun, ← hframes]
          exact ⟨rfl, between.storage.onTop_declare name value⟩
  | .attempt body catchers none, before, hdeclared => by
      simp only [Stmt.exec]
      have hend := body.exec_of_declared hdeclared
      rw [Effect.handling_of_done (Prod.ext hend.1 rfl)]
      exact ⟨rfl, hend.2⟩
  | .attempt body catchers (some otherwise), before, hdeclared => by
      simp only [Stmt.exec]
      have hend := body.exec_of_declared hdeclared
      rw [Effect.handling_of_done (Prod.ext hend.1 rfl)]
      exact ⟨rfl, hend.2⟩

variable {assigned : List String}

/-- Whether it declares a variable or not, a statement keeps the outer blocks. -/
theorem Stmt.keeps_sameOuter {stmt : Stmt}
    (hexec : ∀ before, stmt.declared context before = none →
      EndsWithin (SameLocals assigned) Anything before (stmt.exec context before)) :
    Keeps (SameOuter assigned) Anything (stmt.exec context) := by
  intro before
  cases hdeclared : stmt.declared context before with
  | none => exact (hexec before hdeclared).mono fun _ _ hsame => hsame.sameOuter
  | some bound =>
      have hend := stmt.exec_of_declared hcalls hdeclared
      refine ⟨fun _ _ => trivial, fun _ => hend.2.mono ?_⟩
      rintro frame _ rfl
      exact sameOuter_declare assigned frame bound.1 bound.2

mutual

theorem Stmt.exec_endsWithin : ∀ stmt : Stmt, stmt.assigned ⊆ assigned →
    ∀ before, stmt.declared context before = none →
      EndsWithin (SameLocals assigned) Anything before (stmt.exec context before)
  | .pass, _, before, _ => by
      simp only [Stmt.exec]
      exact .of_frames_eq (sameLocals_equivalence Value assigned) rfl fun _ _ => trivial
  | .block stmts, hassigned, before, _ => by
      simp only [Stmt.exec]
      exact Keeps.inBlock (Stmt.execAll_keeps stmts hassigned) before
  | .declare name ty init, _, before, hdeclared => by
      have hR := sameLocals_equivalence Value assigned
      have hinitial : EndsWithin (SameLocals assigned) (fun _ => False) before
          (initialValue context.calls ("declaration of " ++ name) ty init before) := by
        refine ⟨fun value hvalue => ?_, (keeps_initialValue hcalls hR _ ty init before).frames⟩
        simp only [Stmt.declared, hvalue] at hdeclared
        nomatch hdeclared
      simp only [Stmt.exec]
      exact hinitial.bind hR fun _ => False.elim
  | .assign target value, hassigned, before, _ => by
      have hR := sameLocals_equivalence Value assigned
      simp only [Stmt.exec]
      exact (value.keeps_eval hcalls hR before).bind hR fun value _ =>
        (target.keeps_assign hcalls value hassigned).bind hR fun _ _ =>
          (Keeps.exprRel hR).ret trivial
  | .call callee args, _, before, _ => by
      have hR := sameLocals_equivalence Value assigned
      simp only [Stmt.exec]
      exact (Expr.keeps_evalAll hcalls hR args before).bind hR fun values _ =>
        (keeps_call hcalls hR .statement callee values).bind hR fun _ _ =>
          (Keeps.exprRel hR).ret trivial
  | .ret none, _, before, _ => by
      simp only [Stmt.exec]
      exact .of_frames_eq (sameLocals_equivalence Value assigned) rfl fun _ _ => trivial
  | .ret (some value), _, before, _ => by
      have hR := sameLocals_equivalence Value assigned
      simp only [Stmt.exec]
      exact (value.keeps_eval hcalls hR before).bind hR fun _ _ => (Keeps.exprRel hR).ret trivial
  | .branch test yes no, hassigned, before, _ => by
      have hR := sameLocals_equivalence Value assigned
      obtain ⟨hyes, hno⟩ := List.append_subset.mp hassigned
      simp only [Stmt.exec]
      exact (test.keeps_eval hcalls hR before).bind hR fun _ _ =>
        Keeps.select hR _
          (Keeps.inBlock (Stmt.keeps_sameOuter hcalls (yes.exec_endsWithin hyes)))
          (Keeps.inBlock (Stmt.keeps_sameOuter hcalls (no.exec_endsWithin hno)))
  | .count index first last down body, hassigned, before, _ => by
      have hR := sameLocals_equivalence Value assigned
      have hbounds := (first.keeps_eval hcalls hR).pair hR (first.callFree && last.callFree)
        (last.keeps_eval hcalls hR)
      simp only [Stmt.exec]
      apply (hbounds before).bind hR
      intro values _
      apply (Keeps.lift hR (loopBounds down values.1 values.2)).bind hR
      intro bounds _
      exact keeps_countedRounds context.unroll down index
        (Stmt.keeps_sameOuter hcalls (body.exec_endsWithin hassigned)) _ _ _
  | .loop test body, hassigned, before, _ => by
      simp only [Stmt.exec]
      exact keeps_testedLoop context.unroll context.rounds
        (test.keeps_eval hcalls (sameLocals_equivalence Value assigned))
        (Stmt.keeps_sameOuter hcalls (body.exec_endsWithin hassigned)) before
  | .assert test, _, before, _ => by
      have hR := sameLocals_equivalence Value assigned
      have hpure := (Keeps.exprRel hR).toPureRel
      simp only [Stmt.exec]
      exact (test.keeps_eval hcalls hR before).bind hR fun _ _ =>
        Keeps.select hR _ (hpure.ret trivial) hpure.fault
  | .raise none, _, before, _ => by
      simp only [Stmt.exec]
      exact Keeps.raiseAgain (sameLocals_equivalence Value assigned) before
  | .raise (some exc), _, before, _ => by
      have hR := sameLocals_equivalence Value assigned
      simp only [Stmt.exec]
      exact (exc.keeps_eval hcalls hR before).bind hR fun value _ =>
        (Keeps.lift hR _).bind hR fun _ _ => Keeps.of_outcome hR nofun
  | .attempt body catchers none, hassigned, before, hdeclared => by
      have hR := sameLocals_equivalence Value assigned
      obtain ⟨hbody, hcatchers⟩ := List.append_subset.mp hassigned
      simp only [Stmt.exec]
      apply (body.exec_endsWithin hbody before hdeclared).handling hR
      intro exc
      apply (Keeps.lift hR exc.exceptionName).bind hR
      intro name _
      exact Catcher.keeps_handler? exc name catchers hcatchers (Keeps.of_outcome hR nofun)
  | .attempt body catchers (some otherwise), hassigned, before, hdeclared => by
      have hR := sameLocals_equivalence Value assigned
      obtain ⟨hboth, hotherwise⟩ := List.append_subset.mp hassigned
      obtain ⟨hbody, hcatchers⟩ := List.append_subset.mp hboth
      simp only [Stmt.exec]
      apply (body.exec_endsWithin hbody before hdeclared).handling hR
      intro exc
      apply (Keeps.lift hR exc.exceptionName).bind hR
      intro name _
      exact Catcher.keeps_handler? exc name catchers hcatchers (keeps_runHandler exc none
        (Stmt.keeps_sameOuter hcalls (otherwise.exec_endsWithin hotherwise)))

theorem Stmt.execAll_keeps : ∀ stmts : List Stmt, Stmt.allAssigned stmts ⊆ assigned →
    Keeps (SameOuter assigned) Anything (Stmt.execAll context stmts)
  | [], _ => by
      simp only [Stmt.execAll]
      exact (Keeps.exprRel (sameOuter_equivalence Value assigned)).ret trivial
  | first :: rest, hassigned => by
      have hR := sameOuter_equivalence Value assigned
      obtain ⟨hfirst, hrest⟩ := List.append_subset.mp hassigned
      simp only [Stmt.execAll]
      apply (Stmt.keeps_sameOuter hcalls (first.exec_endsWithin hfirst)).bind hR
      intro flow _
      cases flow with
      | next => exact Stmt.execAll_keeps rest hrest
      | returned value => exact (Keeps.exprRel hR).ret trivial

theorem Catcher.keeps_handler? (exc : Value) (name : String) {otherwise : Eval Flow} :
    ∀ catchers : List Catcher, Catcher.allAssigned catchers ⊆ assigned →
      Keeps (SameLocals assigned) Anything otherwise →
      Keeps (SameLocals assigned) Anything
        ((Catcher.handler? context exc name catchers).getD otherwise)
  | [], _, hotherwise => by
      simp only [Catcher.handler?, Option.getD_none]
      exact hotherwise
  | .mk binding exception body :: rest, hassigned, hotherwise => by
      obtain ⟨hbody, hrest⟩ := List.append_subset.mp hassigned
      simp only [Catcher.handler?]
      by_cases hname : exception = name
      · rw [if_pos hname, Option.getD_some]
        exact keeps_runHandler exc binding
          (Stmt.keeps_sameOuter hcalls (body.exec_endsWithin hbody))
      · rw [if_neg hname]
        exact Catcher.keeps_handler? exc name rest hrest hotherwise

end

/-- Without a fault, a statement does one of two things to the locals around it: it
declares one variable, or it makes assignments. -/
theorem Stmt.exec_locals {stmt : Stmt} {before after : State} {outcome : Outcome Flow}
    {frame : Frame Value} {rest : List (Frame Value)}
    (hframes : before.storage.frames = frame :: rest)
    (hrun : stmt.exec context before = (outcome, after)) (hnonfatal : outcome.Nonfatal) :
    ∃ changed, after.storage.frames = changed :: rest ∧
      match stmt.declared context before with
      | some (name, value) => changed = frame.declare name value
      | none => frame.SameLocals stmt.assigned changed := by
  cases hdeclared : stmt.declared context before with
  | some bound =>
      have htop := (stmt.exec_of_declared hcalls hdeclared).2
      rw [hrun, hframes] at htop
      exact htop.exists_of_cons
  | none =>
      have hend := stmt.exec_endsWithin hcalls (List.Subset.refl _) before hdeclared
      rw [hrun] at hend
      have htop := hend.frames hnonfatal
      rw [hframes] at htop
      exact htop.exists_of_cons

end Statements

/-- Whatever a statement consists of and however it ends, except with a fault, the
frames below the current one are as before, and the current one has the same locals
in each of its blocks, exactly if the statement declares no variable in the block
around it, or only one that is there already. -/
theorem Stmt.sameLocals_iff (subprograms : String → Option Subprogram)
    (unroll bound rounds : Nat) (stmt : Stmt) {before after : State} {outcome : Outcome Flow}
    {frame : Frame Value} {rest : List (Frame Value)}
    (hframes : before.storage.frames = frame :: rest)
    (hrun : stmt.exec ⟨callWithin subprograms unroll bound, rounds, unroll⟩ before =
      (outcome, after))
    (hnonfatal : outcome.Nonfatal) :
    ∃ changed, after.storage.frames = changed :: rest ∧
      (frame.SameLocals stmt.assigned changed ↔
        ∀ name value,
          stmt.declared ⟨callWithin subprograms unroll bound, rounds, unroll⟩ before =
              some (name, value) →
            name ∈ Named.names frame.innermost ∧
              (name ∈ stmt.assigned ∨ Named.get? frame.innermost name = some value)) := by
  have hcalls := keeps_callWithin subprograms unroll bound
  obtain ⟨changed, hafter, hlocals⟩ := Stmt.exec_locals hcalls hframes hrun hnonfatal
  refine ⟨changed, hafter, ?_⟩
  split at hlocals
  · next name value hdeclared =>
      rw [hdeclared, hlocals, sameLocals_declare_iff]
      constructor
      · rintro hsame _ _ ⟨⟩
        exact hsame
      · intro hsame
        exact hsame name value rfl
  · next hdeclared => exact iff_of_true hlocals (by simp [hdeclared])

/-- The index of the loop, the exception that is bound and what the procedure declares
are all gone. -/
theorem sameLocals_catching :
    ∃ frame changed after, State.entered.storage.frames = [frame] ∧
      Stmt.catching.exec ⟨callWithin (Named.get? Table.throwing) 0 2, 1, 0⟩ .entered =
        (.done (.returned (some (.int 7))), after) ∧
      after.storage.frames = [changed] ∧ frame.SameLocals Stmt.catching.assigned changed := by
  have hframes : State.entered.storage.frames = [_] := rfl
  obtain ⟨changed, hafter, hlocals⟩ := Stmt.sameLocals_iff (Named.get? Table.throwing) 0 2 1
    .catching hframes rfl trivial
  refine ⟨_, changed, _, hframes, rfl, hafter, ?_⟩
  exact hlocals.mpr fun _ _ hdeclared => nomatch hdeclared

/-- A declaration with handlers around it, and no block. -/
def Stmt.leaking : Stmt := .attempt (.declare "x" none (some (.literal (.int 1)))) [] none

/-- The declaration of the body stays in the block around the statement. -/
theorem names_leaking :
    ∃ frame changed after, State.entered.storage.frames = [frame] ∧
      Stmt.leaking.exec ⟨callWithin (fun _ => none) 0 0, 0, 0⟩ .entered = (.done .next, after) ∧
      after.storage.frames = [changed] ∧ frame.blocks.map Named.names = [[]] ∧
      changed.blocks.map Named.names = [["x"]] :=
  ⟨_, _, _, rfl, rfl, rfl, rfl, rfl⟩

end ArchSpec
