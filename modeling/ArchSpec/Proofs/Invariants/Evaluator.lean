import ArchSpec.Proofs.Invariants.Laws

/-!
# The evaluator keeps invariants

What is asked of the moments of a run holds at those of every expression and
every statement, by recursion on the syntax, then of every call, by recursion on
the bound on nested calls, and so of whole runs one after the other.
-/

namespace ArchSpec

open Eval Moments

/-! ## Expressions -/

section Expressions

variable {I : Invariant} {calls : Calls} {during : CallMoments}

/-- All calls are sound, with arguments as asked. -/
def Invariant.SoundCalls (I : Invariant) (calls : Calls) (during : CallMoments) : Prop :=
  ∀ (caller : Caller) (name : String) (values : List Value), Value.Each I.ofValue values →
    I.Sound (Value.Each I.ofValue) (calls caller name values) (during caller name values)

mutual

theorem Expr.eval_sound (hI : I.Lawful) (hcalls : I.SoundCalls calls during) : ∀ expr : Expr,
    I.Sound I.ofValue (expr.eval calls) (expr.moments calls during)
  | .literal literal => by
      apply Invariant.Sound.around_result
      simp only [Expr.eval]
      exact .of_keeps (.lift fun _ hvalue => hI.literal hvalue)
  | .var name => by
      apply Invariant.Sound.around_result
      simp only [Expr.eval]
      exact .of_keeps (.readVariable hI name)
  | .binary op left right => by
      apply Invariant.Sound.around_result
      have hleft := left.eval_sound hI hcalls
      have hright := right.eval_sound hI hcalls
      cases hdecided : op.decidedBy with
      | some decisive =>
          simp only [Expr.eval, hdecided]
          refine hleft.bind fun value hvalue => ?_
          have hdecides : I.Sound I.ofValue (Effect.lift (op.apply value value)) Moments.silent :=
            .of_keeps (.lift fun _ hresult => hI.binary hvalue hvalue hresult)
          have hother : I.Sound I.ofValue (do
              let other ← right.eval calls
              Effect.lift (op.apply value other)) (right.moments calls during) :=
            hright.andThen fun _ hother =>
              .lift fun _ hresult => hI.binary hvalue hother hresult
          cases decisive
          · exact .select hother hdecides
          · exact .select hdecides hother
      | none =>
          simp only [Expr.eval, hdecided]
          exact (hleft.pair hright).andThen fun _ hvalues =>
            .lift fun _ hresult => hI.binary hvalues.1 hvalues.2 hresult
  | .unary op operand => by
      apply Invariant.Sound.around_result
      simp only [Expr.eval]
      exact (operand.eval_sound hI hcalls).andThen fun _ hvalue =>
        .lift fun _ hresult => hI.unary hvalue hresult
  | .call callee args => by
      apply Invariant.Sound.around_result
      simp only [Expr.eval]
      exact (Expr.evalAll_sound hI hcalls args).bind fun values hvalues =>
        (hcalls .expression callee values hvalues).andThen fun _ hresults => .theResult hresults
  | .slice source slices => by
      apply Invariant.Sound.around_result
      simp only [Expr.eval]
      exact (source.eval_sound hI hcalls).bind fun _ hsource =>
        (SliceExpr.evalAll_sound hI hcalls slices).andThen fun _ _ =>
          .liftSized fun _ hresult => hI.read hsource hresult
  | .concat items => by
      apply Invariant.Sound.around_result
      simp only [Expr.eval]
      exact (Expr.evalAll_sound hI hcalls items).andThen fun _ hvalues =>
        .liftSized fun _ hresult => hI.concat hvalues hresult
  | .cond test yes no => by
      apply Invariant.Sound.around_result
      simp only [Expr.eval]
      exact (test.eval_sound hI hcalls).bind fun _ _ =>
        .select (yes.eval_sound hI hcalls) (no.eval_sound hI hcalls)
  | .tuple items => by
      apply Invariant.Sound.around_result
      simp only [Expr.eval]
      exact (Expr.evalAll_sound hI hcalls items).andThen fun _ hvalues => .ret (hI.tuple hvalues)
  | .item source index => by
      apply Invariant.Sound.around_result
      simp only [Expr.eval]
      exact (source.eval_sound hI hcalls).andThen fun _ hvalue =>
        .lift fun _ hresult => hI.getItem hvalue hresult
  | .record fields => by
      apply Invariant.Sound.around_result
      simp only [Expr.eval]
      exact (Expr.evalFields_sound hI hcalls fields).andThen fun _ hfields =>
        .lift fun _ hresult => hI.record hfields hresult
  | .field source name => by
      apply Invariant.Sound.around_result
      simp only [Expr.eval]
      exact (source.eval_sound hI hcalls).andThen fun _ hvalue =>
        .lift fun _ hresult => hI.getField hvalue hresult
  | .exception name fields => by
      apply Invariant.Sound.around_result
      simp only [Expr.eval]
      exact (Expr.evalFields_sound hI hcalls fields).andThen fun _ hfields =>
        .lift fun _ hresult => hI.exception hfields hresult

theorem Expr.evalAll_sound (hI : I.Lawful)
    (hcalls : I.SoundCalls calls during) : ∀ exprs : List Expr,
    I.Sound (Value.Each I.ofValue) (Expr.evalAll calls exprs) (Expr.allMoments calls during exprs)
  | [] => .of_keeps (.ret fun _ hmem => nomatch hmem)
  | first :: rest => by
      simp only [Expr.evalAll]
      exact ((first.eval_sound hI hcalls).pair (Expr.evalAll_sound hI hcalls rest)).andThen
        fun _ hvalues => .ret (List.forall_mem_cons.mpr hvalues)

theorem Expr.evalFields_sound (hI : I.Lawful)
    (hcalls : I.SoundCalls calls during) : ∀ fields : List (String × Expr),
    I.Sound (Named.Each I.ofValue) (Expr.evalFields calls fields)
      (Expr.fieldsMoments calls during fields)
  | [] => .of_keeps (.ret fun _ hmem => nomatch hmem)
  | (_, first) :: rest => by
      simp only [Expr.evalFields]
      exact (first.eval_sound hI hcalls).bind fun _ hvalue =>
        (Expr.evalFields_sound hI hcalls rest).andThen fun _ hvalues =>
          .ret (List.forall_mem_cons.mpr ⟨hvalue, hvalues⟩)

theorem SliceExpr.eval_sound (hI : I.Lawful)
    (hcalls : I.SoundCalls calls during) : ∀ slice : SliceExpr,
    I.Sound Anything (slice.eval calls) (slice.moments calls during)
  | .single index => by
      simp only [SliceExpr.eval]
      exact (index.eval_sound hI hcalls).andThen fun _ _ => .ret trivial
  | .range high low => by
      simp only [SliceExpr.eval]
      exact ((high.eval_sound hI hcalls).pair (low.eval_sound hI hcalls)).andThen fun _ _ =>
        (Invariant.Keeps.lift (Q := Anything) fun _ _ => trivial).bind fun _ _ => .ret trivial
  | .length start length => by
      simp only [SliceExpr.eval]
      exact ((start.eval_sound hI hcalls).pair (length.eval_sound hI hcalls)).weaken
        fun _ _ => trivial

theorem SliceExpr.evalAll_sound (hI : I.Lawful)
    (hcalls : I.SoundCalls calls during) : ∀ slices : List SliceExpr,
    I.Sound Anything (SliceExpr.evalAll calls slices) (SliceExpr.allMoments calls during slices)
  | [] => .of_keeps (.ret trivial)
  | first :: rest => by
      simp only [SliceExpr.evalAll]
      exact (first.eval_sound hI hcalls).bind fun _ _ =>
        (SliceExpr.evalAll_sound hI hcalls rest).andThen fun _ _ => .ret trivial

end

mutual

theorem Ty.default_sound (hI : I.Lawful) (hcalls : I.SoundCalls calls during) : ∀ ty : Ty,
    I.Sound I.ofValue (ty.default calls) (ty.moments calls during)
  | .integer => .of_keeps (.ret (hI.int 0))
  | .boolean => .of_keeps (.ret (hI.bool false))
  | .bits width => by
      simp only [Ty.default]
      exact (Expr.eval_sound hI hcalls width).andThen fun _ hvalue =>
        .lift fun _ hresult => hI.zeros hvalue hresult
  | .string => .of_keeps (.ret (hI.str ""))
  | .tuple items => by
      simp only [Ty.default]
      exact (Ty.defaultAll_sound hI hcalls items).andThen fun _ hvalues => .ret (hI.tuple hvalues)
  | .record fields => by
      simp only [Ty.default]
      exact (Ty.defaultFields_sound hI hcalls fields).andThen fun _ hfields =>
        .lift fun _ hresult => hI.record hfields hresult
  | .exception _ => .of_keeps .fault
  | .named _ => .of_keeps .fault

theorem Ty.defaultAll_sound (hI : I.Lawful)
    (hcalls : I.SoundCalls calls during) : ∀ types : List Ty,
    I.Sound (Value.Each I.ofValue) (Ty.defaultAll calls types) (Ty.allMoments calls during types)
  | [] => .of_keeps (.ret fun _ hmem => nomatch hmem)
  | first :: rest => by
      simp only [Ty.defaultAll]
      exact (first.default_sound hI hcalls).bind fun _ hvalue =>
        (Ty.defaultAll_sound hI hcalls rest).andThen fun _ hvalues =>
          .ret (List.forall_mem_cons.mpr ⟨hvalue, hvalues⟩)

theorem Ty.defaultFields_sound (hI : I.Lawful)
    (hcalls : I.SoundCalls calls during) : ∀ fields : List (String × Ty),
    I.Sound (Named.Each I.ofValue) (Ty.defaultFields calls fields)
      (Ty.fieldsMoments calls during fields)
  | [] => .of_keeps (.ret fun _ hmem => nomatch hmem)
  | (_, first) :: rest => by
      simp only [Ty.defaultFields]
      exact (first.default_sound hI hcalls).bind fun _ hvalue =>
        (Ty.defaultFields_sound hI hcalls rest).andThen fun _ hvalues =>
          .ret (List.forall_mem_cons.mpr ⟨hvalue, hvalues⟩)

end

theorem Eval.initialValue_sound (hI : I.Lawful)
    (hcalls : I.SoundCalls calls during) (what : String) (ty : Option Ty) (init : Option Expr) :
    I.Sound I.ofValue (Eval.initialValue calls what ty init)
      (Eval.initialMoments calls during ty init) := by
  cases init with
  | some init => exact Expr.eval_sound hI hcalls init
  | none =>
      cases ty with
      | some ty => exact Ty.default_sound hI hcalls ty
      | none => exact .of_keeps .fault

/-! ## Targets -/

theorem Target.read_sound (hI : I.Lawful) (hcalls : I.SoundCalls calls during) : ∀ target : Target,
    I.Sound I.ofValue (target.read calls) (target.readMoments calls during)
  | .discard => .of_keeps .fault
  | .var name => by
      apply Invariant.Sound.around_result
      simp only [Target.read]
      exact .of_keeps (.readVariable hI name)
  | .field whole name => by
      apply Invariant.Sound.around_result
      simp only [Target.read]
      exact (whole.read_sound hI hcalls).andThen fun _ hvalue =>
        .lift fun _ hresult => hI.getField hvalue hresult
  | .item whole index => by
      apply Invariant.Sound.around_result
      simp only [Target.read]
      exact (whole.read_sound hI hcalls).andThen fun _ hvalue =>
        .lift fun _ hresult => hI.getItem hvalue hresult
  | .slice whole slices => by
      apply Invariant.Sound.around_result
      simp only [Target.read]
      exact (SliceExpr.evalAll_sound hI hcalls slices).bind fun _ _ =>
        (whole.read_sound hI hcalls).andThen fun _ hsource =>
          .liftSized fun _ hresult => hI.read hsource hresult

theorem Target.assign_sound (hI : I.Lawful)
    (hcalls : I.SoundCalls calls during) : ∀ (target : Target) {value : Value}, I.ofValue value →
    I.Sound Anything (target.assign calls value) (target.assignMoments calls during value)
  | .discard, _, _ => .of_keeps (.ret trivial)
  | .var _, _, hvalue => .of_keeps (.writeVariable hI hvalue)
  | .field whole name, value, hvalue => by
      simp only [Target.assign]
      refine (Target.read_sound hI hcalls whole).bind fun container hcontainer => ?_
      have hput : I.Keeps I.ofValue (Effect.lift (container.setField name value)) :=
        .lift fun _ hresult => hI.setField hcontainer hvalue hresult
      exact (Invariant.Sound.of_keeps hput).bind fun _ hupdated =>
        whole.assign_sound hI hcalls hupdated
  | .item whole index, value, hvalue => by
      simp only [Target.assign]
      refine (Target.read_sound hI hcalls whole).bind fun container hcontainer => ?_
      have hput : I.Keeps I.ofValue (Effect.lift (container.setItem index.toNat value)) :=
        .lift fun _ hresult => hI.setItem hcontainer hvalue hresult
      exact (Invariant.Sound.of_keeps hput).bind fun _ hupdated =>
        whole.assign_sound hI hcalls hupdated
  | .slice whole slices, value, hvalue => by
      simp only [Target.assign]
      refine (SliceExpr.evalAll_sound hI hcalls slices).bind fun places _ =>
        (Target.read_sound hI hcalls whole).bind fun container hcontainer => ?_
      have hput : I.Keeps I.ofValue (Effect.lift (Slice.write places value container)) :=
        .lift fun _ hresult => hI.write hvalue hcontainer hresult
      exact (Invariant.Sound.of_keeps hput).bind fun _ hupdated =>
        whole.assign_sound hI hcalls hupdated

end Expressions

/-! ## Statements -/

section Statements

variable {I : Invariant} {context : Context} {during : CallMoments}

mutual

theorem Stmt.exec_sound (hI : I.Lawful)
    (hcalls : I.SoundCalls context.calls during) : ∀ stmt : Stmt,
    I.Sound (Flow.Returns I.ofValue) (stmt.exec context) (stmt.moments context during)
  | .pass => by
      apply Invariant.Sound.around_ending
      simp only [Stmt.exec]
      exact .of_keeps (.ret trivial)
  | .block stmts => by
      apply Invariant.Sound.around_ending
      simp only [Stmt.exec]
      exact .inBlock hI (Stmt.execAll_sound hI hcalls stmts)
  | .declare name ty init => by
      apply Invariant.Sound.around_ending
      simp only [Stmt.exec]
      exact (Eval.initialValue_sound hI hcalls _ ty init).andThen fun _ hvalue =>
        (Invariant.Keeps.declareLocal hI hvalue).bind fun _ _ => .ret trivial
  | .assign target value => by
      apply Invariant.Sound.around_ending
      simp only [Stmt.exec]
      exact (value.eval_sound hI hcalls).bind fun _ hvalue =>
        (target.assign_sound hI hcalls hvalue).andThen fun _ _ => .ret trivial
  | .call callee args => by
      apply Invariant.Sound.around_ending
      simp only [Stmt.exec]
      exact (Expr.evalAll_sound hI hcalls args).bind fun values hvalues =>
        (hcalls .statement callee values hvalues).andThen fun _ _ => .ret trivial
  | .ret none => by
      apply Invariant.Sound.around_ending
      simp only [Stmt.exec]
      exact .of_keeps (.ret trivial)
  | .ret (some value) => by
      apply Invariant.Sound.around_ending
      simp only [Stmt.exec]
      exact (value.eval_sound hI hcalls).andThen fun _ hvalue => .ret hvalue
  | .branch test yes no => by
      apply Invariant.Sound.around_ending
      simp only [Stmt.exec]
      exact (test.eval_sound hI hcalls).bind fun _ _ =>
        .select (.inBlock hI (yes.exec_sound hI hcalls)) (.inBlock hI (no.exec_sound hI hcalls))
  | .count index first last down body => by
      apply Invariant.Sound.around_ending
      simp only [Stmt.exec]
      exact ((first.eval_sound hI hcalls).pair (last.eval_sound hI hcalls)).bind fun _ _ =>
        .countedLoop hI (body.exec_sound hI hcalls)
  | .loop test body => by
      apply Invariant.Sound.around_ending
      simp only [Stmt.exec, Eval.testedLoop]
      exact Invariant.Sound.iterate (Q := Anything)
        (fun _ _ => .testedRound hI (test.eval_sound hI hcalls) (body.exec_sound hI hcalls)) _
        trivial
  | .assert test => by
      apply Invariant.Sound.around_ending
      simp only [Stmt.exec]
      exact (test.eval_sound hI hcalls).andThen fun _ _ => .assertion trivial
  | .raise none => by
      apply Invariant.Sound.around_ending
      simp only [Stmt.exec]
      exact .of_keeps (.raiseAgain hI)
  | .raise (some exc) => by
      apply Invariant.Sound.around_ending
      simp only [Stmt.exec]
      exact (exc.eval_sound hI hcalls).andThen fun _ hexc => .raise hI hexc
  | .attempt body catchers none => by
      apply Invariant.Sound.around_ending
      simp only [Stmt.exec]
      refine (body.exec_sound hI hcalls).handling fun exc hexc => ?_
      refine (Invariant.Sound.of_keeps (.lift (Q := Anything) fun _ _ => trivial)).bind
        fun name _ => ?_
      exact Catcher.handler?_sound hI hcalls hexc (.of_keeps (.throwing hexc)) catchers
  | .attempt body catchers (some otherwise) => by
      apply Invariant.Sound.around_ending
      simp only [Stmt.exec]
      refine (body.exec_sound hI hcalls).handling fun exc hexc => ?_
      refine (Invariant.Sound.of_keeps (.lift (Q := Anything) fun _ _ => trivial)).bind
        fun name _ => ?_
      exact Catcher.handler?_sound hI hcalls hexc
        (.runHandler hI hexc none (otherwise.exec_sound hI hcalls)) catchers

theorem Stmt.execAll_sound (hI : I.Lawful)
    (hcalls : I.SoundCalls context.calls during) : ∀ stmts : List Stmt,
    I.Sound (Flow.Returns I.ofValue) (Stmt.execAll context stmts)
      (Stmt.allMoments context during stmts)
  | [] => .of_keeps (.ret trivial)
  | first :: rest => by
      simp only [Stmt.execAll]
      apply (first.exec_sound hI hcalls).bind
      intro flow hflow
      cases flow with
      | next => exact Stmt.execAll_sound hI hcalls rest
      | returned value => exact .of_keeps (.ret hflow)

theorem Catcher.handler?_sound (hI : I.Lawful)
    (hcalls : I.SoundCalls context.calls during) {exc : Value} {name : String}
    (hexc : I.ofException exc) {otherwise : Eval Flow} {rest : Moments}
    (hotherwise : I.Sound (Flow.Returns I.ofValue) otherwise rest) : ∀ catchers : List Catcher,
    I.Sound (Flow.Returns I.ofValue)
      ((Catcher.handler? context exc name catchers).getD otherwise)
      (Catcher.moments context during exc name rest catchers)
  | [] => hotherwise
  | .mk binding exception body :: catchers => by
      simp only [Catcher.handler?, Catcher.moments]
      split
      · exact .runHandler hI hexc binding (body.exec_sound hI hcalls)
      · exact Catcher.handler?_sound hI hcalls hexc hotherwise catchers

end

end Statements

/-! ## Calls -/

section Calls

variable {I : Invariant} {subprograms : String → Option Subprogram} {unroll bound : Nat}

theorem Eval.bindParameters_sound (hI : I.Lawful) : ∀ (args : List (String × Ty))
    {values : List Value}, Value.Each I.ofValue values →
    I.Sound Anything (Eval.bindParameters args values) (Eval.parameterMoments args values)
  | [], _, _ => .of_keeps (.ret trivial)
  | _ :: _, [], _ => .of_keeps (.ret trivial)
  | (_, _) :: args, _ :: _, hvalues => by
      obtain ⟨hvalue, hrest⟩ := List.forall_mem_cons.mp hvalues
      exact .stepping (.declareLocal hI hvalue) fun _ _ => Eval.bindParameters_sound hI args hrest

theorem Eval.each_results {V : Value → Prop} {flow : Flow} (hflow : Flow.Returns V flow) :
    Value.Each V (Eval.results flow) := by
  match flow, hflow with
  | .next, _ | .returned none, _ => exact List.forall_mem_nil V
  | .returned (some value), hvalue => exact List.forall_mem_singleton.mpr hvalue

/-- A call is sound if those in bodies are. -/
theorem Eval.call_sound {inside : State → Prop} (hI : I.Carries inside)
    (hcalls : (I.inState inside).SoundCalls (Eval.callWithin subprograms unroll bound)
      (Eval.callMomentsWithin subprograms unroll bound)) :
    I.SoundCalls (Eval.callWithin subprograms unroll (bound + 1))
      (Eval.callMomentsWithin subprograms unroll (bound + 1)) := by
  intro caller name values hvalues
  simp only [Eval.callWithin, Eval.callMomentsWithin, Eval.call, Eval.callMoments]
  cases subprograms name with
  | none => exact .of_keeps .fault
  | some decl =>
      cases hkind : decl.body with
      | primitive primitive =>
          simp only [hkind]
          exact .of_keeps (.callPrimitive hI hvalues)
      | stmt body =>
          simp only [hkind]
          split
          · have hexec : (I.inState inside).Sound (Flow.Returns I.ofValue)
                (body.exec ⟨callWithin subprograms unroll bound, bound, unroll⟩)
                (body.moments ⟨callWithin subprograms unroll bound, bound, unroll⟩
                  (callMomentsWithin subprograms unroll bound)) :=
              body.exec_sound hI.lawful hcalls
            have hbody := (Eval.bindParameters_sound hI.lawful decl.args hvalues).bind fun _ _ =>
              hexec
            have hframe := Invariant.Sound.entering hbody (fun _ hstate => hI.opens.enter hstate)
              (fun before after outcome hbefore hafter hrun hnonfatal => by
                have hend := Eval.disciplined_body subprograms unroll bound decl.args values body
                  (before.onStorage (·.pushFrame name))
                rw [hrun] at hend
                exact hI.opens.leave hbefore hafter (hend.stack hnonfatal))
              fun _ hstate => hI.opens.outside hstate
            have hactivation := (Invariant.Sound.of_keeps (.countActivation name)).bind fun _ _ =>
              hframe
            exact hactivation.andThen fun _ hflow => .ret (Eval.each_results hflow)
          · exact .of_keeps .fault

theorem Eval.callWithin_sound {inside : State → Prop} (hI : I.Carries inside)
    (subprograms : String → Option Subprogram) (unroll bound : Nat) :
    I.SoundCalls (Eval.callWithin subprograms unroll bound)
      (Eval.callMomentsWithin subprograms unroll bound) := by
  -- Calls from outside of all activations lead to calls from inside of one.
  induction bound generalizing I with
  | zero => exact fun _ _ _ _ => .of_keeps .exhaust
  | succ bound ih => exact Eval.call_sound hI (ih hI.inside)

end Calls

/-! ## Runs -/

namespace Session

variable {I : Invariant} {initial initialInside inside : State → Prop}

theorem initGlobals_sound (hI : I.Initialises initial) {calls : Calls} {during : CallMoments}
    (hcalls : (I.inState initial).SoundCalls calls during) : ∀ globals : List Global,
    (I.inState initial).Sound Anything (initGlobals calls globals)
      (globalMoments calls during globals)
  | [] => .of_keeps (.ret trivial)
  | decl :: rest =>
      (Eval.initialValue_sound hI.lawful hcalls _ decl.ty decl.init).bind fun _ hvalue =>
        .stepping (.modify fun _ hstate => hI.declareGlobal hstate hvalue) fun _ _ =>
          initGlobals_sound hI hcalls rest

variable (hI : I.Staged initial initialInside inside)

include hI

theorem runGlobalsAndMain_sound (session : Session) (bound : Nat) (program : Program) :
    I.Sound Anything
      (runGlobalsAndMain (Eval.callWithin (Named.get? (session.subprograms.addAll program))
        session.unroll bound) program.globals)
      (session.runMoments bound program) := by
  have hinit := initGlobals_sound hI.initialises (Eval.callWithin_sound hI.initialCalls
    (Named.get? (session.subprograms.addAll program)) session.unroll bound) program.globals
  have hmain := Eval.callWithin_sound hI.calls
    (Named.get? (session.subprograms.addAll program)) session.unroll bound .run entryPoint []
    fun _ hmem => nomatch hmem
  have hglobals := Invariant.Sound.entering hinit
    (fun _ hstate => hI.initialises.start hstate)
    (fun _ _ _ _ hafter _ _ => hI.initialises.stop hafter)
    fun _ hstate => hI.initialises.outside hstate
  apply Invariant.Sound.around_ending
  apply Invariant.Sound.reporting
  refine hglobals.around_ending.bind fun _ _ => hmain.andThen fun results _ => ?_
  split
  · exact .ret trivial
  · exact .fault

/-- All moments of a sequence of runs are as asked, and so is the state in the end. -/
theorem holds_of_meets {bound : Nat} {programs : List Program} {session : Session}
    (hstate : I.ofState session.state) :
    (∀ moment, session.Meets bound programs moment → I.Holds moment) ∧
      I.ofState (session.runAll bound programs).2.state := by
  induction programs generalizing session with
  | nil => exact ⟨fun _ hmoment => hmoment.elim, hstate⟩
  | cons program rest ih =>
      obtain ⟨hholds, hend⟩ := runGlobalsAndMain_sound hI session bound program session.state hstate
      have hafter : I.ofState (session.run bound program).2.state := hend.state
      obtain ⟨hrest, hfinal⟩ := ih hafter
      refine ⟨?_, ?_⟩
      · rintro moment (hmoment | ⟨_, hmoment⟩)
        · exact hholds moment hmoment
        · exact hrest moment hmoment
      · by_cases hover : (session.run bound program).1 = .overflowed
        · rw [runAll_cons_of_overflowed hover]
          exact hafter
        · rw [runAll_cons hover]
          exact hfinal

end Session

end ArchSpec
