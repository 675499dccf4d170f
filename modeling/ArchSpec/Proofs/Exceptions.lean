import ArchSpec.Proofs.Invariants.Evaluator

/-!
# What is thrown

Statements throw values that are exceptions, and a handler keeps the one that it
runs for.  To throw again takes the innermost of these, so at every moment of a run
they are exceptions as well.
-/

namespace ArchSpec

open Eval

/-- The value has the name of an exception. -/
def Value.IsException (value : Value) : Prop := ∃ name, value.exceptionName = .ok name

/-- All values whose handlers are running are exceptions. -/
def State.HandlesExceptions (state : State) : Prop := ∀ exc ∈ state.handled, exc.IsException

theorem Storage.Each.anything {α : Type} (storage : Storage α) : storage.Each Anything :=
  have hblock (block : Named α) : Named.Each Anything block := fun _ _ => trivial
  ⟨hblock _, fun _ _ => ⟨fun block _ => hblock block, hblock _⟩⟩

/-- Only exceptions can be raised, whatever other values there are. -/
theorem ValueLaws.exceptions : ValueLaws Anything Value.IsException :=
  { ValueLaws.anything with
    raised := fun {_ name} _ hname => ⟨name, hname⟩
    caught := fun _ => trivial }

namespace Invariant

/-- What is thrown or handled is an exception, and nothing is asked of variables. -/
def exceptions : Invariant := .stored Anything Value.IsException

theorem exceptions_lawful : exceptions.Lawful := stored_lawful .exceptions

theorem exceptions_ofState_iff {state : State} :
    exceptions.ofState state ↔ state.HandlesExceptions :=
  and_iff_right (Storage.Each.anything state.storage)

theorem Holds.handlesExceptions {moment : Moment} (hholds : exceptions.Holds moment) :
    moment.state.HandlesExceptions := by
  cases moment with
  | passing state => exact exceptions_ofState_iff.mp hholds
  | produced value state => exact exceptions_ofState_iff.mp hholds.2
  | propagating exc state => exact exceptions_ofState_iff.mp hholds.2

end Invariant

/-- From a state that handles exceptions, statements throw exceptions only. -/
theorem Stmt.isException_of_thrown (subprograms : String → Option Subprogram)
    (unroll bound rounds : Nat) {stmt : Stmt} {before after : State} {exc : Value}
    (hbefore : before.HandlesExceptions)
    (hrun : stmt.exec ⟨callWithin subprograms unroll bound, rounds, unroll⟩ before =
      (.thrown exc, after)) :
    exc.IsException := by
  let context : Context := ⟨callWithin subprograms unroll bound, rounds, unroll⟩
  have hI := Invariant.exceptions_lawful
  have hcalls : Invariant.exceptions.SoundCalls context.calls
      (callMomentsWithin subprograms unroll bound) :=
    Eval.callWithin_sound hI.staged.calls subprograms unroll bound
  have hsound := stmt.exec_sound hI hcalls before (Invariant.exceptions_ofState_iff.mpr hbefore)
  exact hsound.2.exception exc (congrArg Prod.fst hrun)

namespace Session

variable (subprograms : Table) (unroll : Nat) (recording : Bool) (bound : Nat)
variable (programs : List Program)

/-- At every moment of all runs, exceptions are on their way and being handled. -/
theorem exceptions_hold_of_meets {moment : Moment}
    (hmoment : (start subprograms unroll recording).Meets bound programs moment) :
    Invariant.exceptions.Holds moment := by
  let session := start subprograms unroll recording
  have hstart : Invariant.exceptions.ofState session.state :=
    Invariant.exceptions_ofState_iff.mpr fun _ hmem => nomatch hmem
  exact (holds_of_meets Invariant.exceptions_lawful.staged hstart).left moment hmoment

theorem handlesExceptions_of_meets {moment : Moment}
    (hmoment : (start subprograms unroll recording).Meets bound programs moment) :
    moment.state.HandlesExceptions :=
  (exceptions_hold_of_meets subprograms unroll recording bound programs hmoment).handlesExceptions

end Session

end ArchSpec
