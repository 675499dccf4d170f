import ArchSpec.Proofs.Relation.Simulation
import ArchSpec.Proofs.Relation.Transport

/-!
# The bound on calls and rounds

Calls and loops are given a bound so that evaluation is a function.  The bound
is no part of the language: once it is large enough for a computation to end,
a larger one changes nothing.
-/

namespace ArchSpec

/-- A larger bound goes on where a smaller one gives up. -/
theorem BoundRel.of_le {bound bound' : Nat} (hle : bound ≤ bound') :
    BoundRel (.simulating .exhaustion Eq) bound bound' :=
  .inr ⟨hle, fun _ _ _ before _ _ => .excused _ (Excuse.covers_exhaustion_iff.mpr rfl) before _⟩

/-- Calls do under larger bounds what they do under smaller ones, until they give up. -/
theorem Eval.callsRel_of_le (subprograms : String → Option Subprogram) (unroll : Nat)
    {bound bound' : Nat} (hbound : bound ≤ bound') (sites : List Call) :
    CallsRel Anything (.simulating .exhaustion Eq) (callWithin subprograms unroll bound)
      (callWithin subprograms unroll bound') sites :=
  have hR : RunRel Anything Anything (.simulating .exhaustion Eq) := Simulation.eq.runRel
  .of_forall fun _ _ _ hvalues =>
    callWithin_related hR.toCallRel.activationRel .anything (.of_le hbound)
      (fun finished => EvalRel.simulating_refl .exhaustion (checkUnroll unroll finished)) hvalues

/-- So do statements. -/
theorem Stmt.exec_simulating (subprograms : String → Option Subprogram) (unroll : Nat)
    {bound bound' rounds rounds' : Nat} (hbound : bound ≤ bound') (hrounds : rounds ≤ rounds')
    (stmt : Stmt) :
    EvalRel.simulating .exhaustion Eq Flow (Flow.Returns Anything)
      (stmt.exec ⟨Eval.callWithin subprograms unroll bound, rounds, unroll⟩)
      (stmt.exec ⟨Eval.callWithin subprograms unroll bound', rounds', unroll⟩) := by
  have hR : RunRel Anything Anything (.simulating .exhaustion Eq) := Simulation.eq.runRel
  have hloop : LoopRel (.simulating .exhaustion Eq)
      ⟨Eval.callWithin subprograms unroll bound, rounds, unroll⟩
      ⟨Eval.callWithin subprograms unroll bound', rounds', unroll⟩ :=
    ⟨.of_le hrounds, fun finished =>
      EvalRel.simulating_refl .exhaustion (Eval.checkUnroll unroll finished)⟩
  exact Stmt.exec_related hR.toStmtRel.stepRel .anything hloop stmt
    (Eval.callsRel_of_le subprograms unroll hbound stmt.calls)

/-- A statement that ends is executed in the same way under all larger bounds. -/
theorem Stmt.exec_of_le (subprograms : String → Option Subprogram) (unroll : Nat)
    {bound bound' rounds rounds' : Nat} (hbound : bound ≤ bound') (hrounds : rounds ≤ rounds')
    (stmt : Stmt) {before : State}
    (hends : (stmt.exec ⟨Eval.callWithin subprograms unroll bound, rounds, unroll⟩ before).1 ≠
      .exhausted) :
    stmt.exec ⟨Eval.callWithin subprograms unroll bound', rounds', unroll⟩ before =
      stmt.exec ⟨Eval.callWithin subprograms unroll bound, rounds, unroll⟩ before :=
  (stmt.exec_simulating subprograms unroll hbound hrounds before before rfl).eq_of_ends nofun
    (mt Excuse.covers_exhaustion_iff.mp hends)

/-- A run that ends is the same under all larger bounds. -/
theorem Session.run_of_le (session : Session) (program : Program) {bound bound' : Nat}
    (hbound : bound ≤ bound') (hends : (session.run bound program).1 ≠ .exhausted) :
    session.run bound' program = session.run bound program := by
  have hR : RunRel Anything Anything (.simulating .exhaustion Eq) := Simulation.eq.runRel
  have hrelated := runWithin_related hR .anything
    (Named.get? (session.subprograms.addAll program)) program.globals (.of_le hbound)
    fun finished => EvalRel.simulating_refl .exhaustion (Eval.checkUnroll session.unroll finished)
  have hsame := (hrelated session.state session.state rfl).eq_of_ends nofun
    (mt Excuse.covers_exhaustion_iff.mp hends)
  simp only [run, runCalling, Calling.within, hsame]

end ArchSpec
