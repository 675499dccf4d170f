import ArchSpec.Proofs.Relation.Transport
import ArchSpec.Proofs.Storage.Frames

/-!
# Stack discipline

Whatever a statement or an expression does on its way, it gives back what it
took: unless it ends with a fault, the frames, their blocks and the exceptions
being handled are those from before, and the activations below the current one
keep their variables.  A fault leaves things behind, but never takes anything
away.  Both facts are one property of computations that every step of the
evaluator keeps.
-/

namespace ArchSpec

variable {α β : Type}

namespace State

/-- Everything on a stack is as before, except for the variables of the current
activation. -/
structure SameStack (before after : State) : Prop where
  frames : before.storage.SameFrames after.storage
  handled : after.handled = before.handled
  initialising : after.storage.initialising = before.storage.initialising

/-- Things may have been left on the stacks, but nothing was taken away. -/
structure Residue (before after : State) : Prop where
  depth : before.storage.depth ≤ after.storage.depth
  handled : before.handled.length ≤ after.handled.length
  initialising : after.storage.initialising = before.storage.initialising

variable {before between after : State}

theorem SameStack.refl (state : State) : SameStack state state :=
  ⟨.refl state.storage, rfl, rfl⟩

theorem SameStack.trans (hfirst : SameStack before between) (hsecond : SameStack between after) :
    SameStack before after :=
  ⟨hfirst.frames.trans hsecond.frames, hsecond.handled.trans hfirst.handled,
    hsecond.initialising.trans hfirst.initialising⟩

theorem SameStack.residue (hsame : SameStack before after) : Residue before after :=
  ⟨Nat.le_of_eq hsame.frames.depth_eq.symm,
    Nat.le_of_eq (congrArg List.length hsame.handled.symm), hsame.initialising⟩

theorem Residue.trans (hfirst : Residue before between) (hsecond : Residue between after) :
    Residue before after :=
  ⟨Nat.le_trans hfirst.depth hsecond.depth, Nat.le_trans hfirst.handled hsecond.handled,
    hsecond.initialising.trans hfirst.initialising⟩

/-- A computation from `before` may end like this. -/
structure Settles (Q : α → Prop) (before : State) (outcome : Outcome α) (after : State) :
    Prop where
  value : ∀ value, outcome = .done value → Q value
  stack : outcome.Nonfatal → SameStack before after
  residue : Residue before after

namespace Settles

variable {Q : α → Prop} {Q' : β → Prop} {outcome : Outcome α} {outcome' : Outcome β}

theorem of_sameStack (hsame : SameStack before after)
    (hvalue : ∀ value, outcome = .done value → Q value) : Settles Q before outcome after :=
  ⟨hvalue, fun _ => hsame, hsame.residue⟩

/-- A computation that begins where another one ended without a fault. -/
theorem after_sameStack (hrest : Settles Q between outcome after)
    (hfirst : SameStack before between) : Settles Q before outcome after :=
  ⟨hrest.value, fun hnonfatal => hfirst.trans (hrest.stack hnonfatal),
    hfirst.residue.trans hrest.residue⟩

/-- The same end with another outcome, which is no value. -/
theorem of_no_value (hend : Settles Q before outcome after)
    (hvalue : ∀ value, outcome' ≠ .done value)
    (hnonfatal : outcome'.Nonfatal → outcome.Nonfatal) : Settles Q' before outcome' after :=
  ⟨fun value houtcome => absurd houtcome (hvalue value),
    fun houtcome => hend.stack (hnonfatal houtcome), hend.residue⟩

end Settles

end State

namespace Eval

open State

/-- Every run of a computation gives back what it took. -/
def Disciplined (Q : α → Prop) (body : Eval α) : Prop :=
  ∀ before, Settles Q before (body before).1 (body before).2

namespace Disciplined

variable {Q : α → Prop} {Q' : β → Prop} {body : Eval α}

/-- A computation that leaves all stacks alone. -/
theorem of_sameStack (hstack : ∀ before, SameStack before (body before).2)
    (hvalue : ∀ before value, (body before).1 = .done value → Q value) : Disciplined Q body :=
  fun before => .of_sameStack (hstack before) (hvalue before)

theorem modify {change : State → State} (hchange : ∀ before, SameStack before (change before)) :
    Disciplined Anything (Effect.modify change) :=
  of_sameStack hchange fun _ _ _ => trivial

theorem bind {next : α → Eval β} (hbody : Disciplined Q body)
    (hnext : ∀ value, Q value → Disciplined Q' (next value)) :
    Disciplined Q' (body >>= next) := by
  intro before
  change Settles Q' before (Effect.bind body next before).1 (Effect.bind body next before).2
  have hend := hbody before
  rw [Effect.bind]
  rcases hrun : body before with ⟨outcome, between⟩
  rw [hrun] at hend
  cases outcome with
  | done value =>
      have hrest := hnext value (hend.value value rfl) between
      exact hrest.after_sameStack (hend.stack trivial)
  | thrown | failed | overflowed | exhausted => exact hend.of_no_value (by simp) id

theorem both {second : Eval β} (hbody : Disciplined Q body) (hsecond : Disciplined Q' second) :
    Disciplined (fun values : α × β => Q values.1 ∧ Q' values.2) (Effect.both body second) := by
  intro before
  have hleft := hbody before
  have hright := hsecond (body before).2
  by_cases hover : (body before).1 = .overflowed
  · rw [Effect.both_of_overflowed hover]
    exact ⟨nofun, False.elim, hleft.residue⟩
  · rw [Effect.both_of_not_overflowed hover]
    constructor
    · intro values hvalues
      obtain ⟨hfirst, hlast⟩ := Outcome.eq_done_of_both hvalues
      exact ⟨hleft.value _ hfirst, hright.value _ hlast⟩
    · intro hnonfatal
      obtain ⟨hfirst, hlast⟩ := Outcome.nonfatal_of_both hnonfatal
      exact (hleft.stack hfirst).trans (hright.stack hlast)
    · exact hleft.residue.trans hright.residue

/-- What is entered before a computation is left after it. -/
theorem within {enter leave : State → State} (hbody : Disciplined Q body)
    (hleave : ∀ before after, SameStack (enter before) after → SameStack before (leave after))
    (henter : ∀ before, Residue before (enter before)) :
    Disciplined Q (Effect.within enter leave body) := by
  intro before
  have hend := hbody (enter before)
  rw [Effect.within]
  rcases hrun : body (enter before) with ⟨outcome, after⟩
  rw [hrun] at hend
  cases outcome with
  | done value => exact .of_sameStack (hleave _ _ (hend.stack trivial)) hend.value
  | thrown exc => exact .of_sameStack (hleave _ _ (hend.stack trivial)) (by simp)
  | failed | overflowed | exhausted =>
      exact ⟨by simp, False.elim, (henter before).trans hend.residue⟩

theorem handling {handler : Value → Eval α} (hbody : Disciplined Q body)
    (hhandler : ∀ exc, Disciplined Q (handler exc)) :
    Disciplined Q (Effect.handling body handler) := by
  intro before
  have hend := hbody before
  rw [Effect.handling]
  rcases hrun : body before with ⟨outcome, between⟩
  rw [hrun] at hend
  cases outcome with
  | thrown exc => exact (hhandler exc between).after_sameStack (hend.stack trivial)
  | done | failed | overflowed | exhausted => exact hend

theorem readVariable (name : String) : Disciplined Anything (Eval.readVariable name) := by
  apply of_sameStack _ fun _ _ _ => trivial
  intro before
  rw [Eval.readVariable]
  split <;> exact ⟨.refl before.storage, rfl, rfl⟩

theorem writeVariable (name : String) (value : Value) :
    Disciplined Anything (Eval.writeVariable name value) := by
  apply of_sameStack _ fun _ _ _ => trivial
  intro before
  rw [Eval.writeVariable]
  split
  · rename_i storage scope hassign
    exact ⟨Storage.sameFrames_of_assign hassign, rfl, Storage.initialising_of_assign hassign⟩
  · exact .refl before

theorem declareLocal (name : String) (value : Value) :
    Disciplined Anything (Eval.declareLocal name value) :=
  modify fun before => ⟨Storage.sameFrames_declare before.storage name value, rfl,
    Storage.initialising_declare before.storage name value⟩

theorem inBlock (hbody : Disciplined Q body) : Disciplined Q (Eval.inBlock body) := by
  apply hbody.within
  · intro before after hsame
    have hinitialising : (after.storage.popBlock).initialising = before.storage.initialising := by
      calc
        after.storage.popBlock.initialising = after.storage.initialising :=
          Storage.initialising_onFrame _ _
        _ = before.storage.pushBlock.initialising := hsame.initialising
        _ = before.storage.initialising := Storage.initialising_onFrame _ _
    exact ⟨Storage.sameFrames_popBlock hsame.frames, hsame.handled, hinitialising⟩
  · intro before
    have hdepth : before.storage.pushBlock.depth = before.storage.depth :=
      Storage.depth_onFrame _ _
    exact ⟨Nat.le_of_eq hdepth.symm, Nat.le_refl _, Storage.initialising_onFrame _ _⟩

theorem countActivation (subprogram : String) :
    Disciplined Anything (Eval.countActivation subprogram) := by
  apply of_sameStack _ fun _ _ _ => trivial
  intro before
  rw [snd_countActivation]
  exact .refl before

theorem withFrame (subprogram : String) (hbody : Disciplined Q body) :
    Disciplined Q (Effect.within (State.onStorage (·.pushFrame subprogram))
      (State.onStorage Storage.popFrame) body) := by
  apply hbody.within
  · intro before after hsame
    have hframes := Storage.frames_popFrame hsame.frames
    exact ⟨.of_frames_eq hframes, hsame.handled, hsame.initialising⟩
  · intro before
    exact ⟨Nat.le_succ _, Nat.le_refl _, rfl⟩

theorem inActivation (subprogram : String) (hbody : Disciplined Q body) :
    Disciplined Q (Eval.inActivation subprogram body) :=
  (countActivation subprogram).bind fun _ _ => hbody.withFrame subprogram

theorem whileHandling (exc : Value) (hbody : Disciplined Q body) :
    Disciplined Q (Eval.whileHandling exc body) := by
  apply hbody.within
  · intro before after hsame
    exact ⟨hsame.frames, congrArg List.tail hsame.handled, hsame.initialising⟩
  · intro before
    exact ⟨Nat.le_refl _, Nat.le_succ _, rfl⟩

theorem raiseAgain : Disciplined Q (Eval.raiseAgain : Eval α) := by
  apply of_sameStack
  · intro before
    rw [Eval.raiseAgain]
    split <;> exact .refl before
  · intro before value hvalue
    rw [Eval.raiseAgain] at hvalue
    split at hvalue <;> nomatch hvalue

theorem checkUnroll (unroll finished : Nat) :
    Disciplined Anything (Eval.checkUnroll unroll finished) := by
  rw [Eval.checkUnroll]
  split
  · exact modify fun before => ⟨.refl before.storage, rfl, rfl⟩
  · exact of_sameStack .refl fun _ _ _ => trivial

end Disciplined

/-- Every step of the evaluator gives back what it took. -/
theorem disciplined_callRel :
    CallRel Anything Anything (.single fun _ Q body => Disciplined Q body) where
  ret hvalue := .of_sameStack .refl fun _ _ houtcome => by cases houtcome; exact hvalue
  bind hbody hnext := hbody.bind hnext
  fault := .of_sameStack .refl fun _ _ houtcome => nomatch houtcome
  overflow := .of_sameStack .refl fun _ _ houtcome => nomatch houtcome
  both hleft hright := hleft.both hright
  readVariable := .readVariable _
  writeVariable _ := .writeVariable _ _
  declareLocal _ := .declareLocal _ _
  inBlock hbody := hbody.inBlock
  whileHandling _ hbody := hbody.whileHandling _
  handling hbody hhandler := hbody.handling fun exc => hhandler exc trivial
  throwing _ := .of_sameStack .refl fun _ _ houtcome => nomatch houtcome
  raiseAgain := .raiseAgain
  exhaust := .of_sameStack .refl fun _ _ houtcome => nomatch houtcome
  inActivation hbody := hbody.inActivation _
  print := .modify fun before => ⟨.refl before.storage, rfl, rfl⟩

variable (subprograms : String → Option Subprogram) (unroll bound : Nat)

/-- The body of a subprogram with its parameters bound. -/
theorem disciplined_body (args : List (String × Ty)) (values : List Value) (body : Stmt) :
    Disciplined (Flow.Returns Anything) (do
      bindParameters args values
      body.exec ⟨callWithin subprograms unroll bound, bound, unroll⟩) := by
  have hvalues : Value.Each Anything values := fun _ _ => trivial
  have hparameters := Eval.bindParameters_related disciplined_callRel.activationRel args hvalues
  exact Disciplined.bind hparameters fun _ _ =>
    Stmt.exec_single disciplined_callRel .anything (.checkUnroll unroll) subprograms bound bound
      body

/-- A statement or an expression that ends without a fault, however its loops,
blocks, handlers and calls nest, leaves the frames with their scopes and their
numbers of blocks, all variables below the current frame, and the exceptions
being handled as they were. -/
theorem sameStack_of_nonfatal :
    (∀ (rounds : Nat) (stmt : Stmt) (before after : State) (outcome : Outcome Flow),
      stmt.exec ⟨callWithin subprograms unroll bound, rounds, unroll⟩ before = (outcome, after) →
      outcome.Nonfatal → before.SameStack after) ∧
    ∀ (expr : Expr) (before after : State) (outcome : Outcome Value),
      expr.eval (callWithin subprograms unroll bound) before = (outcome, after) →
      outcome.Nonfatal → before.SameStack after := by
  constructor
  · intro rounds stmt before after outcome hrun hnonfatal
    have hend := Stmt.exec_single disciplined_callRel .anything (.checkUnroll unroll)
      subprograms bound rounds stmt before
    rw [hrun] at hend
    exact hend.stack hnonfatal
  · intro expr before after outcome hrun hnonfatal
    have hend := Expr.eval_single disciplined_callRel .anything (.checkUnroll unroll)
      subprograms bound expr before
    rw [hrun] at hend
    exact hend.stack hnonfatal

end Eval

/-- A procedure that throws its argument while a variable of its own lives. -/
def Table.throwing : Table :=
  [("throw", .ofProcedure "throw" [("exc", .exception [])] (.block
    [.declare "own" none (some (.literal (.int 0))), .raise (some (.var "exc"))]))]

/-- A loop whose body throws through a call, and a handler that returns. -/
def Stmt.catching : Stmt :=
  .attempt (.count "index" (.literal (.int 0)) (.literal (.int 3)) false
      (.call "throw" [.exception "Stop" []]))
    [.mk (some "caught") "Stop" (.ret (some (.literal (.int 7))))] none

/-- The first state inside the entry point. -/
def State.entered : State := (State.start false).onStorage (·.pushFrame entryPoint)

/-- The exception leaves an activation, a block and a loop behind it. -/
theorem sameStack_catching :
    ∃ after, Stmt.catching.exec ⟨Eval.callWithin (Named.get? Table.throwing) 0 2, 1, 0⟩ .entered =
        (.done (.returned (some (.int 7))), after) ∧ State.entered.SameStack after :=
  ⟨_, rfl, (Eval.sameStack_of_nonfatal (Named.get? Table.throwing) 0 2).left 1 .catching _ _ _
    rfl trivial⟩

end ArchSpec
