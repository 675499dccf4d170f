import ArchSpec.Proofs.Exceptions

/-!
# Handlers that throw again

A handler that only throws the exception again might as well not be there: what it
throws is what it was entered for, and its block and its entry among the exceptions
being handled are gone by then.  The same goes for catchers that do not name the
exception.  Both rely on what is thrown being an exception, which holds at all
moments of a run.
-/

namespace ArchSpec

open Eval

theorem Storage.popBlock_pushBlock {α : Type} (storage : Storage α) :
    storage.pushBlock.popBlock = storage := by
  rcases storage with ⟨globals, _ | ⟨frame, rest⟩, activations, initialising⟩ <;> rfl

/-- A handler that throws the exception again leaves the state as it was entered. -/
theorem Eval.runHandler_raiseAgain (exc : Value) (state : State) :
    runHandler exc none raiseAgain state = (.thrown exc, state) := by
  -- the entry of the exception is gone by computation, the block by cases on the frames
  have hrun : runHandler exc none raiseAgain state =
      (.thrown exc, state.onStorage fun storage => storage.pushBlock.popBlock) := rfl
  rw [hrun, State.onStorage, Storage.popBlock_pushBlock]

/-- What a handler throws again goes on as if nobody had handled it. -/
theorem Effect.handling_eq_self {σ α : Type} {body : Effect σ α} {handler : Value → Effect σ α}
    {before : σ}
    (hhandler : ∀ exc after, body before = (.thrown exc, after) →
      handler exc after = (.thrown exc, after)) :
    Effect.handling body handler before = body before := by
  rw [Effect.handling]
  split
  · next exc after hrun => rw [hrun, hhandler exc after hrun]
  · rfl

namespace Catcher

/-- Throws an exception with a name again. -/
def rethrow (exception : String) : Catcher := .mk none exception (.raise none)

/-- The name of the exceptions that are caught. -/
def exception : Catcher → String
  | .mk _ exception _ => exception

variable (context : Context) (exc : Value) {name : String}

theorem handler?_eq_none {catchers : List Catcher}
    (hname : name ∉ catchers.map exception) : handler? context exc name catchers = none := by
  induction catchers with
  | nil => simp only [handler?]
  | cons catcher rest ih =>
      obtain ⟨binding, caught, body⟩ := catcher
      obtain ⟨hne, hrest⟩ := not_or.mp (List.mem_cons.not.mp hname)
      have hcaught : caught ≠ name := Ne.symm hne
      simp only [handler?]
      rw [if_neg hcaught, ih hrest]

theorem handler?_rethrow (names : List String) :
    handler? context exc name (names.map rethrow) =
      if name ∈ names then some (runHandler exc none raiseAgain) else none := by
  induction names with
  | nil => simp only [List.map_nil, handler?, List.not_mem_nil, if_false]
  | cons first rest ih =>
      simp only [List.map_cons, rethrow, handler?, Stmt.exec, List.mem_cons]
      by_cases hfirst : first = name
      · rw [if_pos hfirst, if_pos (.inl hfirst.symm)]
      · rw [if_neg hfirst]
        simp only [Ne.symm hfirst, false_or]
        exact ih

end Catcher

namespace Stmt

/-- What runs if no catcher names an exception. -/
def fallback (context : Context) (exc : Value) : Option Stmt → Eval Flow
  | none => Effect.throwing exc
  | some otherwise => runHandler exc none (otherwise.exec context)

variable {context : Context} {body : Stmt} {catchers : List Catcher} {otherwise : Option Stmt}
variable {before : State}

/-- With and without a handler for all other exceptions, what follows depends on the
name of the exception in the same way. -/
theorem exec_attempt (context : Context) (body : Stmt) (catchers : List Catcher)
    (otherwise : Option Stmt) :
    (Stmt.attempt body catchers otherwise).exec context =
      Effect.handling (body.exec context) (fun exc => do
        let name ← Effect.lift exc.exceptionName
        (Catcher.handler? context exc name catchers).getD (fallback context exc otherwise)) := by
  cases otherwise with
  | none | some => simp only [Stmt.exec, fallback]

/-- Handlers make no difference if they throw again whatever exception the body
throws. -/
theorem exec_attempt_eq
    (hthrown : ∀ exc after, body.exec context before = (.thrown exc, after) → exc.IsException)
    (hhandler : ∀ exc after name, body.exec context before = (.thrown exc, after) →
      exc.exceptionName = .ok name →
      (Catcher.handler? context exc name catchers).getD (fallback context exc otherwise) after =
        (.thrown exc, after)) :
    (Stmt.attempt body catchers otherwise).exec context before = body.exec context before := by
  rw [exec_attempt]
  apply Effect.handling_eq_self
  intro exc after hrun
  obtain ⟨name, hname⟩ := hthrown exc after hrun
  rw [hname]
  exact hhandler exc after name hrun hname

theorem fallback_rethrows (hotherwise : ∀ handler ∈ otherwise, handler = .raise none)
    (exc : Value) (state : State) :
    fallback context exc otherwise state = (.thrown exc, state) := by
  cases otherwise with
  | none => rfl
  | some handler =>
      rw [hotherwise handler rfl, fallback]
      simp only [Stmt.exec]
      exact runHandler_raiseAgain exc state

end Stmt

/-- At every moment of all runs, handlers that only throw the exception again make
no difference to what a statement does, and neither do any catchers as long as the
statement throws nothing that they name. -/
theorem Session.exec_attempt_of_meets (table : Table) (unroll : Nat) (recording : Bool)
    (bound : Nat) (programs : List Program) {moment : Moment}
    (hmoment : (start table unroll recording).Meets bound programs moment)
    (subprograms : String → Option Subprogram) (limit depth rounds : Nat) (body : Stmt) :
    let context : Context := ⟨callWithin subprograms limit depth, rounds, limit⟩
    let before := moment.state
    (∀ (names : List String) (otherwise : Option Stmt),
      (∀ handler ∈ otherwise, handler = .raise none) →
      (Stmt.attempt body (names.map Catcher.rethrow) otherwise).exec context before =
        body.exec context before) ∧
    ∀ catchers : List Catcher,
      (∀ exc after name, body.exec context before = (.thrown exc, after) →
        exc.exceptionName = .ok name → name ∉ catchers.map Catcher.exception) →
      (Stmt.attempt body catchers none).exec context before = body.exec context before := by
  intro context before
  have hbefore := handlesExceptions_of_meets table unroll recording bound programs hmoment
  have hthrown : ∀ exc after, body.exec context before = (.thrown exc, after) →
      exc.IsException := fun _ _ hrun =>
    Stmt.isException_of_thrown subprograms limit depth rounds hbefore hrun
  constructor
  · intro names otherwise hotherwise
    refine Stmt.exec_attempt_eq hthrown fun exc after name _ _ => ?_
    rw [Catcher.handler?_rethrow]
    split
    · exact runHandler_raiseAgain exc after
    · exact Stmt.fallback_rethrows hotherwise exc after
  · intro catchers hnames
    refine Stmt.exec_attempt_eq hthrown fun exc after name hrun hname => ?_
    rw [Catcher.handler?_eq_none context exc (hnames exc after name hrun hname)]
    rfl

/-- A program whose entry point catches what it throws. -/
def Program.catching : Program :=
  ⟨[.subprogram (.ofFunction entryPoint [] .integer
    (.attempt (.raise (some (.exception "Stop" []))) [.mk none "Stop" .pass] none))]⟩

namespace Session

/-- Inside its handler, the exception is thrown once more in any case. -/
theorem exec_rethrow_catching :
    ∃ state, state.handled = [.exception "Stop" []] ∧
      (start Program.catching.table 0 true).Meets 1 [Program.catching] (.passing state) ∧
      (Stmt.attempt (.raise none) [.rethrow "Stop"] (some (.raise none))).exec
        ⟨callWithin (fun _ => none) 0 0, 0, 0⟩ state = (.thrown (.exception "Stop" []), state) ∧
      (Stmt.attempt (.raise none) [.mk (some "caught") "Other" .pass] none).exec
        ⟨callWithin (fun _ => none) 0 0, 0, 0⟩ state = (.thrown (.exception "Stop" []), state) := by
  let state := ((State.start true).onStorage fun storage =>
    ((storage.setInitialising true).setInitialising false).pushFrame entryPoint).pushHandled
      (.exception "Stop" [])
  have hmoment : (start Program.catching.table 0 true).Meets 1 [Program.catching]
      (.passing state) := by
    refine .inl (.inr (.inl (.inr ⟨(), _, rfl, .inr ⟨(), _, rfl, ?_⟩⟩)))
    refine .inr (.inl (.inr ⟨(), _, rfl, ?_⟩))
    exact .inr (.inl (.inr ⟨.exception "Stop" [], _, rfl, .inr ⟨"Stop", _, rfl, .inl rfl⟩⟩))
  have hexec := exec_attempt_of_meets Program.catching.table 0 true 1 [Program.catching] hmoment
    (fun _ => none) 0 0 0 (.raise none)
  refine ⟨state, rfl, hmoment, ?_, ?_⟩
  · exact hexec.left ["Stop"] (some (.raise none)) fun _ hhandler => (Option.some.inj hhandler).symm
  · refine hexec.right [.mk (some "caught") "Other" .pass] ?_
    rintro exc after name ⟨⟩ ⟨⟩
    decide

end Session

end ArchSpec
