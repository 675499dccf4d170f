import ArchSpec.Proofs.Bound
import ArchSpec.Proofs.EmptyBlocks

/-!
# Unfolding of loops

A loop that tests before every round is one test, one round and the loop again.  The
rounds of a loop lie side by side, while those of the unfolded statement lie in one
block more each time, so this rests on the fact that no run notices an empty block.
-/

namespace ArchSpec

variable {α β : Type}

/-- A statement ends like this once the bound on calls and rounds is large enough. -/
def Stmt.EndsIn (subprograms : String → Option Subprogram) (unroll : Nat) (stmt : Stmt)
    (before : State) (run : Outcome Flow × State) : Prop :=
  run.1 ≠ .exhausted ∧ ∃ bound rounds,
    stmt.exec ⟨Eval.callWithin subprograms unroll bound, rounds, unroll⟩ before = run

/-- A statement ends in one way only. -/
theorem Stmt.EndsIn.unique {subprograms : String → Option Subprogram} {unroll : Nat} {stmt : Stmt}
    {before : State} {run run' : Outcome Flow × State}
    (hrun : stmt.EndsIn subprograms unroll before run)
    (hrun' : stmt.EndsIn subprograms unroll before run') : run = run' := by
  obtain ⟨hends, bound, rounds, rfl⟩ := hrun
  obtain ⟨hends', bound', rounds', rfl⟩ := hrun'
  have hbounds := Stmt.exec_of_le subprograms unroll (Nat.le_max_left bound bound')
    (Nat.le_max_left rounds rounds') stmt hends
  have hbounds' := Stmt.exec_of_le subprograms unroll (Nat.le_max_right bound bound')
    (Nat.le_max_right rounds rounds') stmt hends'
  exact hbounds.symm.trans hbounds'

namespace Eval

/-- Two runs are the same; after a fault they may have left different blocks behind. -/
structure SameRun (run run' : Outcome α × State) : Prop where
  outcome : run'.1 = run.1
  storage : run.1.Nonfatal → run'.2.storage = run.2.storage
  handled : run'.2.handled = run.2.handled
  recorder : run'.2.recorder = run.2.recorder
  warnings : run'.2.warnings = run.2.warnings
  printed : run'.2.printed = run.2.printed

namespace SameRun

variable {run run' run'' : Outcome α × State}

theorem refl (run : Outcome α × State) : SameRun run run :=
  ⟨rfl, fun _ => rfl, rfl, rfl, rfl, rfl⟩

theorem trans (hfirst : SameRun run run') (hsecond : SameRun run' run'') : SameRun run run'' where
  outcome := hsecond.outcome.trans hfirst.outcome
  storage hnonfatal :=
    (hsecond.storage (hfirst.outcome.symm ▸ hnonfatal)).trans (hfirst.storage hnonfatal)
  handled := hsecond.handled.trans hfirst.handled
  recorder := hsecond.recorder.trans hfirst.recorder
  warnings := hsecond.warnings.trans hfirst.warnings
  printed := hsecond.printed.trans hfirst.printed

/-- What comes after the same computation. -/
theorem bind (first : Eval α) {next next' : α → Eval β}
    (hnext : ∀ value state, SameRun (next value state) (next' value state)) (before : State) :
    SameRun ((first >>= next) before) ((first >>= next') before) := by
  change SameRun (Effect.bind first next before) (Effect.bind first next' before)
  rw [Effect.bind, Effect.bind]
  rcases first before with ⟨outcome, between⟩
  cases outcome with
  | done value => exact hnext value between
  | thrown | failed | overflowed | exhausted => exact .refl _

theorem select (test : Value) {yes yes' no : Eval α}
    (hyes : ∀ state, SameRun (yes state) (yes' state)) (before : State) :
    SameRun (Effect.select test yes no before) (Effect.select test yes' no before) := by
  rw [Effect.select, Effect.select]
  refine bind _ (fun outcome state => ?_) before
  cases outcome with
  | false => exact .refl _
  | true => exact hyes state

end SameRun

/-! ## Blocks around a computation -/

/-- A block that nothing is declared in may be left out. -/
theorem inBlock_pure (value : α) : inBlock (pure value : Eval α) = pure value := by
  funext state
  rcases state with ⟨⟨globals, frames, activations, initialising⟩, handled, recorder, warnings,
    printed⟩
  cases frames <;> rfl

/-- Outside any frame there are no blocks. -/
theorem inBlock_of_frames_nil {Q : α → Prop} {body : Eval α} (hbody : Disciplined Q body)
    {before : State} (hframes : before.storage.frames = []) :
    inBlock body before = body before := by
  have hpush : before.onStorage Storage.pushBlock = before := by
    rw [State.onStorage, Storage.pushBlock, Storage.onFrame, hframes]
  have hstack := (hbody before).stack
  rw [inBlock, Effect.within, hpush]
  rcases hrun : body before with ⟨outcome, after⟩
  rw [hrun] at hstack
  have hpop (hsame : before.SameStack after) : after.onStorage Storage.popBlock = after := by
    have hdepth : after.storage.frames.length = before.storage.frames.length :=
      hsame.frames.depth_eq
    rw [hframes, List.length_nil, List.length_eq_zero_iff] at hdepth
    rw [State.onStorage, Storage.popBlock, Storage.onFrame, hdepth]
  cases outcome with
  | done | thrown => exact congrArg (Prod.mk _) (hpop (hstack trivial))
  | failed | overflowed | exhausted => rfl

/-- What takes no notice of an empty block may run in one. -/
theorem sameRun_inBlock {Q : α → Prop} {body : Eval α}
    (hbody : ∀ below outer, Overlooks below outer Anything Q body) (before : State) :
    SameRun (body before) (inBlock body before) := by
  cases hframes : before.storage.frames with
  | nil =>
      rw [inBlock_of_frames_nil (hbody 0 0).disciplined hframes]
      exact .refl _
  | cons frame rest =>
      have hpadded : before.Padded rest.length frame.inner.length
          (before.onStorage Storage.pushBlock) :=
        .mk (Storage.padded_pushBlock hframes) _ _ _ _
      obtain ⟨outcome, after, after', hrun, hrun', hafter⟩ :=
        ((hbody _ _).ends hpadded trivial).exists_eq
      have hstack := ((hbody 0 0).disciplined before).stack
      rw [hrun] at hstack
      rw [inBlock, Effect.within, hrun, hrun']
      have hpop (hsame : before.SameStack after) :
          after'.storage.popBlock = after.storage :=
        hafter.storage.popBlock_of_sameFrames hframes hsame.frames
      rcases hafter with ⟨hstorage⟩
      cases outcome with
      | done | thrown =>
          exact ⟨rfl, fun _ => hpop (hstack trivial), rfl, rfl, rfl, rfl⟩
      | failed | overflowed | exhausted => exact ⟨rfl, False.elim, rfl, rfl, rfl, rfl⟩

/-! ## One round and the rest -/

/-- Goes on with the rest unless there is a value to return. -/
def andThen (rest : Eval Flow) : Flow → Eval Flow
  | .next => rest
  | .returned value => pure (.returned value)

section Rounds

variable (test : Eval Value) (body : Eval Flow)

theorem iterate_testedRound_succ (unroll rounds finished : Nat) :
    Effect.iterate (testedRound unroll test body) (rounds + 1) finished = (do
      let value ← test
      Effect.select value
        (do
          checkUnroll unroll finished
          inBlock body >>= andThen
            (Effect.iterate (testedRound unroll test body) rounds (countRound finished)))
        (pure .next)) := by
  rw [Effect.iterate_succ, testedRound, Effect.bind_assoc]
  congr 1
  funext value
  rw [Effect.select_bind]
  congr 1
  rw [Effect.bind_assoc]
  congr 1
  funext _
  rw [Effect.bind_assoc]
  congr 1
  funext flow
  cases flow <;> rfl

/-- Without an unrolling bound the finished rounds do not matter. -/
theorem iterate_testedRound (rounds finished : Nat) :
    Effect.iterate (testedRound 0 test body) rounds finished = testedLoop 0 rounds test body := by
  induction rounds generalizing finished with
  | zero => rfl
  | succ rounds ih =>
      rw [testedLoop, iterate_testedRound_succ, iterate_testedRound_succ, ih, ih (countRound 0)]
      rfl

theorem testedLoop_succ (rounds : Nat) :
    testedLoop 0 (rounds + 1) test body = (do
      let value ← test
      Effect.select value (inBlock body >>= andThen (testedLoop 0 rounds test body))
        (pure .next)) := by
  rw [testedLoop, iterate_testedRound_succ, iterate_testedRound]
  rfl

end Rounds

variable {below outer : Nat} {test : Eval Value} {body rest : Eval Flow}

theorem overlooks_andThen {Q : Flow → Prop}
    (hbody : Overlooks below outer (Storage.Inside below outer) Q body)
    (hrest : Overlooks below outer Anything Anything rest) :
    Overlooks below outer Anything Anything (inBlock body >>= andThen rest) := by
  refine hbody.inBlock.bind (fun _ => id) fun flow _ => ?_
  cases flow with
  | next => exact hrest
  | returned value => exact .of_outcome fun _ _ => trivial

/-- Every round is in a block of its own, so the loop need not be. -/
theorem overlooks_testedLoop {Q : Flow → Prop}
    (htest : Overlooks below outer Anything Anything test)
    (hbody : Overlooks below outer (Storage.Inside below outer) Q body) (rounds : Nat) :
    Overlooks below outer Anything Anything (testedLoop 0 rounds test body) := by
  induction rounds with
  | zero => exact .of_outcome fun _ _ => trivial
  | succ rounds ih =>
      rw [testedLoop_succ]
      refine htest.bind (fun _ => id) fun value _ => ?_
      rw [Effect.select]
      refine (Overlooks.lift value.asBool).bind (fun _ => id) fun outcome _ => ?_
      cases outcome with
      | false => exact .of_outcome fun _ _ => trivial
      | true => exact overlooks_andThen hbody ih

end Eval

open Eval

/-- The loop with its first round in front of it. -/
def Stmt.unfoldLoop (test : Expr) (body : Stmt) : Stmt :=
  .branch test (.block [.block [body], .loop test body]) .pass

theorem Stmt.execAll_singleton (context : Context) (stmt : Stmt) :
    Stmt.execAll context [stmt] = stmt.exec context := by
  calc
    Stmt.execAll context [stmt] = (stmt.exec context >>= pure) := by
      simp only [Stmt.execAll]
      congr 1
      funext flow
      cases flow <;> rfl
    _ = stmt.exec context := Effect.bind_pure _

theorem Stmt.exec_unfoldLoop (context : Context) (test : Expr) (body : Stmt) :
    (Stmt.unfoldLoop test body).exec context = (do
      let value ← test.eval context.calls
      Effect.select value
        (inBlock (inBlock
          (inBlock (body.exec context) >>= andThen ((Stmt.loop test body).exec context))))
        (pure .next)) := by
  have hrounds : Stmt.execAll context [.block [body], .loop test body] =
      (inBlock (body.exec context) >>= andThen ((Stmt.loop test body).exec context)) := by
    rw [Stmt.execAll, Stmt.exec, Stmt.execAll_singleton, Stmt.execAll_singleton]
    rfl
  rw [Stmt.unfoldLoop]
  simp only [Stmt.exec.eq_def context (.branch ..), Stmt.exec.eq_def context (.block _),
    Stmt.exec.eq_def context .pass, hrounds, inBlock_pure]

section Unfolding

variable (subprograms : String → Option Subprogram) (bound : Nat) (test : Expr) (body : Stmt)

/-- The rounds of a loop, and of those in its body, may be more. -/
theorem Stmt.testedLoop_of_le {rounds rounds' inner inner' : Nat} (hrounds : rounds ≤ rounds')
    (hinner : inner ≤ inner') {before : State} :
    let calls := callWithin subprograms 0 bound
    let run := testedLoop 0 rounds (test.eval calls) (body.exec ⟨calls, inner, 0⟩) before
    run.1 ≠ .exhausted →
      testedLoop 0 rounds' (test.eval calls) (body.exec ⟨calls, inner', 0⟩) before = run := by
  intro calls run hends
  have hR : RunRel Anything Anything (.simulating .exhaustion Eq) := Simulation.eq.runRel
  have hloop : LoopRel (.simulating .exhaustion Eq) ⟨calls, rounds, 0⟩ ⟨calls, rounds', 0⟩ :=
    ⟨.of_le hrounds, fun _ => EvalRel.simulating_refl .exhaustion _⟩
  have hrelated := hR.toStmtRel.stepRel.testedLoop hloop
    (EvalRel.simulating_refl .exhaustion (test.eval calls))
    (body.exec_simulating subprograms 0 (Nat.le_refl bound) hinner)
  exact (hrelated before before rfl).eq_of_ends nofun (mt Excuse.covers_exhaustion_iff.mp hends)

/-- Of the rounds that a loop may take, the first one is in front. -/
theorem Stmt.unfoldLoop_sameRun (rounds : Nat) (before : State) :
    SameRun
      (testedLoop 0 (rounds + 1) (test.eval (callWithin subprograms 0 bound))
        (body.exec ⟨callWithin subprograms 0 bound, rounds, 0⟩) before)
      ((Stmt.unfoldLoop test body).exec ⟨callWithin subprograms 0 bound, rounds, 0⟩ before) := by
  have htest (below outer : Nat) := test.eval_overlooks below outer subprograms 0 bound
  have hbody (below outer : Nat) :=
    body.exec_overlooks below outer subprograms 0 bound rounds
  have hround (below outer : Nat) := overlooks_andThen (hbody below outer)
    (overlooks_testedLoop (htest below outer) (hbody below outer) rounds)
  have hblock (below outer : Nat) :=
    Overlooks.inBlock (P := Anything) ((hround below outer).mono fun _ _ => trivial)
  rw [testedLoop_succ, Stmt.exec_unfoldLoop]
  refine SameRun.bind _ (fun value state => SameRun.select value (fun state => ?_) state) before
  exact (sameRun_inBlock hround state).trans (sameRun_inBlock hblock state)

end Unfolding

/-- A loop that never warns and the statement that has its first round in front end in the
same way, or do not end either. -/
theorem Stmt.loop_unfolds (subprograms : String → Option Subprogram) (test : Expr) (body : Stmt)
    (before : State) :
    ((∃ run, (Stmt.loop test body).EndsIn subprograms 0 before run) ↔
        ∃ run, (Stmt.unfoldLoop test body).EndsIn subprograms 0 before run) ∧
      ∀ run run', (Stmt.loop test body).EndsIn subprograms 0 before run →
        (Stmt.unfoldLoop test body).EndsIn subprograms 0 before run' → SameRun run run' := by
  have hloop (run : Outcome Flow × State)
      (hrun : (Stmt.loop test body).EndsIn subprograms 0 before run) :
      ∃ run', (Stmt.unfoldLoop test body).EndsIn subprograms 0 before run' ∧ SameRun run run' := by
    obtain ⟨hends, bound, rounds, rfl⟩ := hrun
    have hmore := Stmt.testedLoop_of_le subprograms bound test body
      (Nat.le_add_right rounds 1) (Nat.le_refl rounds) hends
    have hsame := Stmt.unfoldLoop_sameRun subprograms bound test body rounds before
    rw [hmore] at hsame
    exact ⟨_, ⟨hsame.outcome.symm ▸ hends, bound, rounds, rfl⟩, hsame⟩
  have hunfolded (run' : Outcome Flow × State)
      (hrun' : (Stmt.unfoldLoop test body).EndsIn subprograms 0 before run') :
      ∃ run, (Stmt.loop test body).EndsIn subprograms 0 before run := by
    obtain ⟨hends, bound, rounds, rfl⟩ := hrun'
    have hsame := Stmt.unfoldLoop_sameRun subprograms bound test body rounds before
    have hloopEnds := hsame.outcome ▸ hends
    exact ⟨_, hloopEnds, bound, rounds + 1,
      Stmt.testedLoop_of_le subprograms bound test body (Nat.le_refl _)
        (Nat.le_add_right rounds 1) hloopEnds⟩
  refine ⟨⟨?_, fun ⟨run', hrun'⟩ => hunfolded run' hrun'⟩, fun run run' hrun hrun' => ?_⟩
  · rintro ⟨run, hrun⟩
    obtain ⟨run', hrun', _⟩ := hloop run hrun
    exact ⟨run', hrun'⟩
  · obtain ⟨_, hend, hsame⟩ := hloop run hrun
    rwa [hrun'.unique hend]

/-- Whether a variable is below two. -/
def Expr.belowTwo : Expr := .binary .lt (.var "x") (.literal (.int 2))

def Stmt.addOne : Stmt := .assign (.var "x") (.binary .add (.var "x") (.literal (.int 1)))

def State.beforeCount : State := State.entered.onStorage fun storage => storage.declare "x" (.int 0)

/-- Both count to two. -/
theorem loop_unfolds_belowTwo :
    ∃ run run', (Stmt.loop .belowTwo .addOne).EndsIn (fun _ => none) 0 .beforeCount run ∧
      (Stmt.unfoldLoop .belowTwo .addOne).EndsIn (fun _ => none) 0 .beforeCount run' ∧
      (run.2.storage.lookup "x").map Prod.fst = some (.int 2) ∧ SameRun run run' := by
  have hloop : (Stmt.loop .belowTwo .addOne).EndsIn (fun _ => none) 0 .beforeCount
      ((Stmt.loop .belowTwo .addOne).exec ⟨callWithin (fun _ => none) 0 0, 3, 0⟩ .beforeCount) :=
    ⟨nofun, 0, 3, rfl⟩
  have hunfolded : (Stmt.unfoldLoop .belowTwo .addOne).EndsIn (fun _ => none) 0 .beforeCount
      ((Stmt.unfoldLoop .belowTwo .addOne).exec ⟨callWithin (fun _ => none) 0 0, 2, 0⟩
        .beforeCount) :=
    ⟨nofun, 0, 2, rfl⟩
  exact ⟨_, _, hloop, hunfolded, rfl,
    (Stmt.loop_unfolds (fun _ => none) .belowTwo .addOne .beforeCount).2 _ _ hloop hunfolded⟩

end ArchSpec
