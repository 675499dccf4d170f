import ArchSpec.Proofs.Faults.Evaluation
import ArchSpec.Proofs.Rethrowing

/-!
# Only exceptions are thrown

What is on its way to a handler is an exception, and so is what handlers run for.  So
an attempt always finds a name by which to choose a handler, and it makes no difference
what it would do without.  An exception that nobody handles ends the run with its text;
no other fault looks like that.
-/

namespace ArchSpec

open Eval Moments

theorem Value.isException_iff {value : Value} :
    value.IsException ↔ ∃ name fields, value = .exception name fields := by
  constructor
  · rintro ⟨name, hname⟩
    cases value with
    | exception other fields => exact ⟨other, fields, rfl⟩
    | _ => nomatch hname
  · rintro ⟨name, fields, rfl⟩
    exact ⟨name, rfl⟩

/-- The exceptions at a moment: one that is on its way to a handler, and those whose
handlers are running. -/
def Moment.exceptions : Moment → List Value
  | .propagating exc state => exc :: state.handled
  | .passing state | .produced _ state => state.handled

theorem Invariant.Holds.isException {moment : Moment} (hholds : exceptions.Holds moment) :
    ∀ exc ∈ moment.exceptions, exc.IsException := by
  have hhandled : moment.state.HandlesExceptions := hholds.handlesExceptions
  cases moment with
  | propagating exc state => exact List.forall_mem_cons.mpr ⟨hholds.1, hhandled⟩
  | passing | produced => exact hhandled

/-- An attempt that does something else, no matter what, with a thrown value that has no
name. -/
def Stmt.attemptOr (context : Context) (body : Stmt) (catchers : List Catcher)
    (otherwise : Option Stmt) (nameless : Value → Eval Flow) : Eval Flow :=
  Effect.handling (body.exec context) fun exc =>
    match exc.exceptionName with
    | .ok name =>
        (Catcher.handler? context exc name catchers).getD (fallback context exc otherwise)
    | .error _ => nameless exc

theorem Stmt.exec_attempt_eq_attemptOr {context : Context} {body : Stmt} {before : State}
    (hthrown : ∀ exc after, body.exec context before = (.thrown exc, after) → exc.IsException)
    (catchers : List Catcher) (otherwise : Option Stmt) (nameless : Value → Eval Flow) :
    (Stmt.attempt body catchers otherwise).exec context before =
      attemptOr context body catchers otherwise nameless before := by
  rw [exec_attempt, attemptOr, Effect.handling, Effect.handling]
  rcases hrun : body.exec context before with ⟨outcome, after⟩
  cases outcome with
  | thrown exc =>
      obtain ⟨name, hname⟩ := hthrown exc after hrun
      simp only [hname]
      rfl
  | done | failed | overflowed | exhausted => rfl

/-! ## Where a reported exception comes from -/

theorem Eval.callPrimitive_ne_thrown (name : String) (values : List Value) (before : State)
    (exc : Value) : (callPrimitive name values before).1 ≠ .thrown exc := by
  intro hthrown
  rw [callPrimitive] at hthrown
  cases hname : Primitive.ofName? name with
  | none =>
      rw [hname] at hthrown
      cases hthrown
  | some primitive =>
      simp only [hname] at hthrown
      cases hcall : primitive.call values with
      | error cause | ok reply =>
          rw [hcall] at hthrown
          cases hthrown

/-- What a call throws is on its way when its body ends. -/
theorem Eval.exists_propagating_of_call {subprograms : String → Option Subprogram}
    {unroll bound : Nat} {caller : Caller} {name : String} {values : List Value} {exc : Value}
    {before after : State}
    (hrun : callWithin subprograms unroll bound caller name values before = (.thrown exc, after)) :
    ∃ state, callMomentsWithin subprograms unroll bound caller name values before
      (.propagating exc state) := by
  cases bound with
  | zero => cases hrun
  | succ bound =>
      rw [callWithin, call] at hrun
      rw [callMomentsWithin, callMoments]
      cases hdecl : subprograms name with
      | none =>
          rw [hdecl] at hrun
          cases hrun
      | some decl =>
          simp only [hdecl] at hrun
          cases hbody : decl.body with
          | primitive primitive =>
              simp only [hbody] at hrun
              exact (callPrimitive_ne_thrown primitive values before exc
                (congrArg Prod.fst hrun)).elim
          | stmt body =>
              simp only [hbody] at hrun ⊢
              split at hrun
              · next hlength =>
                rcases Effect.of_bind_thrown hrun with hframe | ⟨_, _, _, hresults⟩
                · rcases Effect.of_bind_thrown hframe with hcount | ⟨_, between, hcount, hbody⟩
                  · rw [countActivation] at hcount
                    split at hcount <;> cases hcount
                  · obtain ⟨state, hend, _⟩ := Effect.of_within_nonfatal hbody trivial
                    refine ⟨state, ?_⟩
                    rw [if_pos hlength]
                    refine .inr ⟨(), between, hcount, .inr (.inr ?_)⟩
                    rw [hend]
                    rfl
                · cases hresults
              · cases hrun

namespace Session

theorem callMain_thrown {calls : Calls} {before after : State} {exc : Value}
    (hrun : callMain calls before = (.thrown exc, after)) :
    calls .run entryPoint [] before = (.thrown exc, after) := by
  rcases Effect.of_bind_thrown hrun with hcall | ⟨results, between, _, hresults⟩
  · exact hcall
  · split at hresults <;> cases hresults

/-- The exception that a run reports was on its way in it. -/
theorem exists_propagating_of_run {session : Session} {bound : Nat} {program : Program}
    {text : String} (hrun : (session.run bound program).1 = .failed (.uncaughtException text)) :
    ∃ exc state, text = exc.print ∧
      session.runMoments bound program session.state (.propagating exc state) := by
  have hcalls := callWithin_ordinary (Named.get? (session.subprograms.addAll program))
    session.unroll bound
  obtain ⟨exc, after, htext, hinner⟩ := thrown_of_uncaught hcalls hrun
  rcases Effect.of_bind_thrown hinner with hinit | ⟨_, between, hinit, hmain⟩
  · refine ⟨exc, after, htext, .inr (.inl (.inl (.inr (.inr ?_))))⟩
    rw [hinit]
    rfl
  · obtain ⟨state, hmoment⟩ := exists_propagating_of_call (callMain_thrown hmain)
    exact ⟨exc, state, htext, .inr (.inl (.inr ⟨(), between, hinit, hmoment⟩))⟩

theorem exists_propagating_of_runAll {session : Session} {bound : Nat} {programs : List Program}
    {text : String}
    (hrun : .failed (.uncaughtException text) ∈ (session.runAll bound programs).1) :
    ∃ exc state, text = exc.print ∧ session.Meets bound programs (.propagating exc state) := by
  induction programs generalizing session with
  | nil => nomatch hrun
  | cons program rest ih =>
      by_cases hover : (session.run bound program).1 = .overflowed
      · rw [runAll_cons_of_overflowed hover, List.mem_singleton] at hrun
        nomatch hrun
      · rw [runAll_cons hover] at hrun
        rcases List.mem_cons.mp hrun with hfirst | hrest
        · obtain ⟨exc, state, htext, hmoment⟩ := exists_propagating_of_run hfirst.symm
          exact ⟨exc, state, htext, .inl hmoment⟩
        · obtain ⟨exc, state, htext, hmoment⟩ := ih hrest
          exact ⟨exc, state, htext, .inr ⟨hover, hmoment⟩⟩

/-- At every moment of all runs, exceptions are thrown and handled, and nothing else: so
no attempt comes across a thrown value without a name.  A run that reports an exception
gives the text of one that was on its way. -/
theorem exceptions_of_meets (table : Table) (unroll : Nat) (recording : Bool) (bound : Nat)
    (programs : List Program) :
    let session := start table unroll recording
    (∀ moment, session.Meets bound programs moment →
      (∀ exc ∈ moment.exceptions, ∃ name fields, exc = .exception name fields) ∧
      ∀ (subprograms : String → Option Subprogram) (limit depth rounds : Nat) (body : Stmt)
        (catchers : List Catcher) (otherwise : Option Stmt) (nameless : Value → Eval Flow),
        let context : Context := ⟨callWithin subprograms limit depth, rounds, limit⟩
        (Stmt.attempt body catchers otherwise).exec context moment.state =
          Stmt.attemptOr context body catchers otherwise nameless moment.state) ∧
    ∀ text, .failed (.uncaughtException text) ∈ (session.runAll bound programs).1 →
      ∃ name fields state, text = (Value.exception name fields).print ∧
        session.Meets bound programs (.propagating (.exception name fields) state) := by
  intro session
  have hexceptions : ∀ moment, session.Meets bound programs moment →
      ∀ exc ∈ moment.exceptions, ∃ name fields, exc = .exception name fields := by
    intro moment hmoment exc hexc
    have hholds := exceptions_hold_of_meets table unroll recording bound programs hmoment
    exact Value.isException_iff.mp (hholds.isException exc hexc)
  refine ⟨fun moment hmoment => ⟨hexceptions moment hmoment, ?_⟩, fun text hrun => ?_⟩
  · intro subprograms limit depth rounds body catchers otherwise nameless context
    have hbefore := handlesExceptions_of_meets table unroll recording bound programs hmoment
    exact Stmt.exec_attempt_eq_attemptOr
      (fun _ _ hrun => Stmt.isException_of_thrown subprograms limit depth rounds hbefore hrun)
      catchers otherwise nameless
  · obtain ⟨exc, state, htext, hmoment⟩ := exists_propagating_of_runAll hrun
    obtain ⟨name, fields, rfl⟩ := hexceptions _ hmoment exc (List.mem_cons_self ..)
    exact ⟨name, fields, state, htext, hmoment⟩

end Session

/-- A program whose entry point catches what it throws, and throws it again. -/
def Program.rethrowing : Program :=
  ⟨[.subprogram (.ofFunction entryPoint [] .integer
    (.attempt (.raise (some (.exception "Stop" []))) [.mk none "Stop" (.raise none)] none))]⟩

namespace Session

/-- The exception is on its way while its handler is still running, and nobody handles
it then. -/
theorem exceptions_rethrowing :
    let session := start Program.rethrowing.table 0 true
    ∃ state, session.Meets 1 [Program.rethrowing] (.propagating (.exception "Stop" []) state) ∧
      state.handled = [.exception "Stop" []] ∧
      (∀ exc ∈ [.exception "Stop" [], .exception "Stop" []],
        ∃ name fields, exc = Value.exception name fields) ∧
      .failed (.uncaughtException "Stop \x7b  \x7d") ∈
        (session.runAll 1 [Program.rethrowing]).1 ∧
      ∃ name fields state, "Stop \x7b  \x7d" = (Value.exception name fields).print ∧
        session.Meets 1 [Program.rethrowing] (.propagating (.exception name fields) state) := by
  intro session
  let state := ((State.start true).onStorage fun storage =>
    (((storage.setInitialising true).setInitialising false).pushFrame entryPoint).pushBlock
      ).pushHandled (.exception "Stop" [])
  have hmoment : session.Meets 1 [Program.rethrowing]
      (.propagating (.exception "Stop" []) state) := by
    refine .inl (.inr (.inl (.inr ⟨(), _, rfl, .inr ⟨(), _, rfl, ?_⟩⟩)))
    refine .inr (.inl (.inr ⟨(), _, rfl, ?_⟩))
    refine .inr (.inl (.inr ⟨.exception "Stop" [], _, rfl, .inr ⟨"Stop", _, rfl, ?_⟩⟩))
    exact .inr (.inl (.inr (.inr rfl)))
  obtain ⟨hmoments, hreports⟩ := exceptions_of_meets Program.rethrowing.table 0 true 1
    [Program.rethrowing]
  have hrun : .failed (.uncaughtException "Stop \x7b  \x7d") ∈
      (session.runAll 1 [Program.rethrowing]).1 := List.mem_singleton.mpr rfl
  exact ⟨state, hmoment, rfl, (hmoments _ hmoment).1, hrun, hreports _ hrun⟩

end Session

end ArchSpec
