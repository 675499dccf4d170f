import ArchSpec.Proofs.StackDiscipline
import ArchSpec.Proofs.Storage.Padding

/-!
# Empty blocks in runs

An expression or a call takes no notice of an empty block in a frame: it ends in the
same way without it, and leaves the same state apart from it.  A statement may be a
declaration, so it has to be inside another block of that frame.
-/

namespace ArchSpec

variable {α β : Type} {below outer : Nat}

namespace State

/-- The second state has an empty block more in one of its frames. -/
inductive Padded (below outer : Nat) : State → State → Prop where
  | mk {storage storage' : Storage Value} (hstorage : storage.Padded below outer storage')
      (handled : List Value) (recorder : Recorder) (warnings : List String) (printed : String) :
      Padded below outer ⟨storage, handled, recorder, warnings, printed⟩
        ⟨storage', handled, recorder, warnings, printed⟩

namespace Padded

variable {before before' : State}

theorem storage (hpadded : Padded below outer before before') :
    before.storage.Padded below outer before'.storage := by
  rcases hpadded with ⟨hstorage⟩
  exact hstorage

theorem handled_eq (hpadded : Padded below outer before before') :
    before'.handled = before.handled := by
  cases hpadded
  rfl

theorem onStorage (hpadded : Padded below outer before before')
    {change : Storage Value → Storage Value}
    (hchange : (change before.storage).Padded below outer (change before'.storage)) :
    Padded below outer (before.onStorage change) (before'.onStorage change) := by
  cases hpadded
  exact .mk hchange _ _ _ _

theorem pushHandled (hpadded : Padded below outer before before') (exc : Value) :
    Padded below outer (before.pushHandled exc) (before'.pushHandled exc) := by
  rcases hpadded with ⟨hstorage⟩
  exact .mk hstorage _ _ _ _

theorem popHandled (hpadded : Padded below outer before before') :
    Padded below outer before.popHandled before'.popHandled := by
  rcases hpadded with ⟨hstorage⟩
  exact .mk hstorage _ _ _ _

theorem note (hpadded : Padded below outer before before') (access : Access) (name : String)
    (scope : Scope) : Padded below outer (before.note access name scope)
      (before'.note access name scope) := by
  rcases hpadded with ⟨hstorage⟩
  exact .mk hstorage _ _ _ _

theorem warn (hpadded : Padded below outer before before') (message : String) :
    Padded below outer (before.warn message) (before'.warn message) := by
  rcases hpadded with ⟨hstorage⟩
  exact .mk hstorage _ _ _ _

theorem print (hpadded : Padded below outer before before') (text : String) :
    Padded below outer (before.print text) (before'.print text) := by
  rcases hpadded with ⟨hstorage⟩
  exact .mk hstorage _ _ _ _

end Padded

end State

namespace Eval

open State (Padded)
open Storage (Inside SameFrames)

/-- Two runs ended in the same way, the second one in a padded state. -/
def EndsPadded (below outer : Nat) (run run' : Outcome α × State) : Prop :=
  run'.1 = run.1 ∧ Padded below outer run.2 run'.2

theorem EndsPadded.exists_eq {run run' : Outcome α × State}
    (hends : EndsPadded below outer run run') :
    ∃ outcome after after', run = (outcome, after) ∧ run' = (outcome, after') ∧
      Padded below outer after after' :=
  ⟨run.1, run.2, run'.2, rfl, Prod.ext hends.1 rfl, hends.2⟩

/-- A computation takes no notice of an empty block, if the storage has a property. -/
structure Overlooks (below outer : Nat) (P : Storage Value → Prop) (Q : α → Prop)
    (body : Eval α) : Prop where
  disciplined : Disciplined Q body
  ends : ∀ {before before'}, Padded below outer before before' → P before.storage →
    EndsPadded below outer (body before) (body before')

namespace Overlooks

variable {P P' : Storage Value → Prop} {Q : α → Prop} {Q' : β → Prop} {body : Eval α}

theorem mono (hbody : Overlooks below outer P Q body) (himp : ∀ storage, P' storage → P storage) :
    Overlooks below outer P' Q body :=
  ⟨hbody.disciplined, fun hpadded hbefore => hbody.ends hpadded (himp _ hbefore)⟩

theorem of_outcome {outcome : Outcome α} (hvalue : ∀ value, outcome = .done value → Q value) :
    Overlooks below outer P Q fun state => (outcome, state) :=
  ⟨.of_sameStack .refl fun _ => hvalue, fun hpadded _ => ⟨rfl, hpadded⟩⟩

theorem lift (result : Except Fault α) :
    Overlooks below outer P Anything (Effect.lift result) := by
  cases result <;> exact of_outcome fun _ _ => trivial

theorem modify {change : State → State} (hdisciplined : Disciplined Anything (Effect.modify change))
    (hchange : ∀ {before before'}, Padded below outer before before' → P before.storage →
      Padded below outer (change before) (change before')) :
    Overlooks below outer P Anything (Effect.modify change) :=
  ⟨hdisciplined, fun hpadded hbefore => ⟨rfl, hchange hpadded hbefore⟩⟩

/-- What is entered before a computation is left after it. -/
theorem within {enter leave : State → State} (hbody : Overlooks below outer P Q body)
    (hdisciplined : Disciplined Q (Effect.within enter leave body))
    (henter : ∀ {before before'}, Padded below outer before before' → P' before.storage →
      Padded below outer (enter before) (enter before') ∧ P (enter before).storage)
    (hleave : ∀ {before before' after after'}, Padded below outer before before' →
      (enter before).SameStack after → P (enter before).storage →
      Padded below outer after after' → Padded below outer (leave after) (leave after')) :
    Overlooks below outer P' Q (Effect.within enter leave body) := by
  refine ⟨hdisciplined, fun {before before'} hpadded hbefore => ?_⟩
  obtain ⟨hentered, hinside⟩ := henter hpadded hbefore
  obtain ⟨outcome, after, after', hrun, hrun', hafter⟩ := (hbody.ends hentered hinside).exists_eq
  have hstack := (hbody.disciplined (enter before)).stack
  rw [hrun] at hstack
  rw [Effect.within, Effect.within, hrun, hrun']
  cases outcome with
  | done | thrown => exact ⟨rfl, hleave hpadded (hstack trivial) hinside hafter⟩
  | failed | overflowed | exhausted => exact ⟨rfl, hafter⟩

/-- Inside a block of its own a computation may be anywhere. -/
theorem inBlock (hbody : Overlooks below outer (Inside below outer) Q body) :
    Overlooks below outer P Q (Eval.inBlock body) := by
  refine hbody.within hbody.disciplined.inBlock ?_ ?_
  · intro before before' hpadded _
    exact ⟨hpadded.onStorage hpadded.storage.pushBlock, hpadded.storage.inside_pushBlock⟩
  · intro before before' after after' _ hstack hinside hafter
    exact hafter.onStorage (hafter.storage.popBlock (hinside.of_sameFrames hstack.frames))

/-- In a frame of its own a computation may be anywhere. -/
theorem withFrame (subprogram : String)
    (hbody : Overlooks below outer (Inside below outer) Q body) :
    Overlooks below outer P Q (Effect.within (State.onStorage (·.pushFrame subprogram))
      (State.onStorage Storage.popFrame) body) := by
  refine hbody.within (hbody.disciplined.withFrame subprogram) ?_ ?_
  · intro before before' hpadded _
    exact ⟨hpadded.onStorage (hpadded.storage.pushFrame subprogram),
      hpadded.storage.inside_pushFrame subprogram⟩
  · intro before before' after after' hpadded hstack _ hafter
    have hdepth : after.storage.depth = before.storage.depth + 1 := hstack.frames.depth_eq
    refine hafter.onStorage (hafter.storage.popFrame ?_)
    rw [hdepth]
    exact Nat.succ_lt_succ hpadded.storage.lt_depth

theorem inActivation (subprogram : String)
    (hbody : Overlooks below outer (Inside below outer) Q body) :
    Overlooks below outer P Q (Eval.inActivation subprogram body) := by
  refine ⟨hbody.disciplined.inActivation subprogram, fun {before before'} hpadded hbefore => ?_⟩
  by_cases hfull : before.storage.Full subprogram
  · rw [inActivation_of_full hfull, inActivation_of_full (hpadded.storage.full_iff.mpr hfull)]
    exact ⟨rfl, hpadded⟩
  · rw [inActivation_of_not_full hfull,
      inActivation_of_not_full (mt hpadded.storage.full_iff.mp hfull)]
    exact (hbody.withFrame subprogram).ends hpadded hbefore

theorem whileHandling (exc : Value) (hbody : Overlooks below outer P Q body) :
    Overlooks below outer P Q (Eval.whileHandling exc body) :=
  hbody.within (hbody.disciplined.whileHandling exc)
    (fun hpadded hbefore => ⟨hpadded.pushHandled exc, hbefore⟩)
    fun _ _ _ hafter => hafter.popHandled

theorem readVariable (name : String) :
    Overlooks below outer P Anything (Eval.readVariable name) := by
  refine ⟨.readVariable name, fun {before before'} hpadded _ => ?_⟩
  rw [Eval.readVariable, Eval.readVariable, hpadded.storage.lookup_eq]
  cases before.storage.lookup name with
  | none => exact ⟨rfl, hpadded⟩
  | some found => exact ⟨rfl, hpadded.note _ _ _⟩

theorem writeVariable (name : String) (value : Value) :
    Overlooks below outer P Anything (Eval.writeVariable name value) := by
  refine ⟨.writeVariable name value, fun {before before'} hpadded _ => ?_⟩
  rw [Eval.writeVariable, Eval.writeVariable]
  cases hassign : before.storage.assign name value with
  | none =>
      rw [hpadded.storage.assign_eq_none hassign]
      exact ⟨rfl, hpadded⟩
  | some assigned =>
      obtain ⟨updated, hassign', hupdated⟩ := hpadded.storage.assign hassign
      rw [hassign']
      have hstates : Padded below outer (before.onStorage fun _ => assigned.1)
          (before'.onStorage fun _ => updated) := by
        cases hpadded
        exact .mk hupdated _ _ _ _
      exact ⟨rfl, hstates.note _ _ _⟩

theorem declareLocal (name : String) (value : Value) :
    Overlooks below outer (Inside below outer) Anything (Eval.declareLocal name value) := by
  refine .modify (.declareLocal name value) fun {before before'} hpadded hinside => ?_
  rw [hpadded.storage.currentScope_eq]
  exact (hpadded.note _ _ _).onStorage (hpadded.storage.declare hinside name value)

theorem raiseAgain : Overlooks below outer P Q (Eval.raiseAgain : Eval α) := by
  refine ⟨.raiseAgain, fun {before before'} hpadded _ => ?_⟩
  rw [Eval.raiseAgain, Eval.raiseAgain, hpadded.handled_eq]
  cases before.handled with
  | nil | cons => exact ⟨rfl, hpadded⟩

theorem checkUnroll (unroll finished : Nat) :
    Overlooks below outer P Anything (Eval.checkUnroll unroll finished) := by
  have hdisciplined := Disciplined.checkUnroll unroll finished
  rw [Eval.checkUnroll] at hdisciplined ⊢
  by_cases hwarn : 0 < unroll ∧ finished = unroll
  · rw [if_pos hwarn] at hdisciplined ⊢
    exact .modify hdisciplined fun hpadded _ => hpadded.warn _
  · rw [if_neg hwarn]
    exact .of_outcome fun _ _ => trivial

section Stable

variable (hP : ∀ {before after : Storage Value}, SameFrames before after → P before → P after)

include hP

theorem bind {next : α → Eval β} (hbody : Overlooks below outer P Q body)
    (hnext : ∀ value, Q value → Overlooks below outer P Q' (next value)) :
    Overlooks below outer P Q' (body >>= next) := by
  refine ⟨hbody.disciplined.bind fun value hvalue => (hnext value hvalue).disciplined,
    fun {before before'} hpadded hbefore => ?_⟩
  change EndsPadded below outer (Effect.bind body next before) (Effect.bind body next before')
  obtain ⟨outcome, after, after', hrun, hrun', hafter⟩ := (hbody.ends hpadded hbefore).exists_eq
  have hend := hbody.disciplined before
  rw [hrun] at hend
  rw [Effect.bind, Effect.bind, hrun, hrun']
  cases outcome with
  | done value =>
      exact (hnext value (hend.value value rfl)).ends hafter
        (hP (hend.stack trivial).frames hbefore)
  | thrown | failed | overflowed | exhausted => exact ⟨rfl, hafter⟩

theorem handling {handler : Value → Eval α} (hbody : Overlooks below outer P Q body)
    (hhandler : ∀ exc, Overlooks below outer P Q (handler exc)) :
    Overlooks below outer P Q (Effect.handling body handler) := by
  refine ⟨hbody.disciplined.handling fun exc => (hhandler exc).disciplined,
    fun {before before'} hpadded hbefore => ?_⟩
  obtain ⟨outcome, after, after', hrun, hrun', hafter⟩ := (hbody.ends hpadded hbefore).exists_eq
  have hend := hbody.disciplined before
  rw [hrun] at hend
  rw [Effect.handling, Effect.handling, hrun, hrun']
  cases outcome with
  | thrown exc =>
      exact (hhandler exc).ends hafter (hP (hend.stack trivial).frames hbefore)
  | done | failed | overflowed | exhausted => exact ⟨rfl, hafter⟩

end Stable

/-- Both run, even if the first one fails. -/
theorem both {second : Eval β} (hbody : Overlooks below outer Anything Q body)
    (hsecond : Overlooks below outer Anything Q' second) :
    Overlooks below outer Anything (fun values : α × β => Q values.1 ∧ Q' values.2)
      (Effect.both body second) := by
  refine ⟨hbody.disciplined.both hsecond.disciplined, fun {before before'} hpadded _ => ?_⟩
  obtain ⟨hfirst, hbetween⟩ := hbody.ends hpadded trivial
  by_cases hover : (body before).1 = .overflowed
  · rw [Effect.both_of_overflowed hover, Effect.both_of_overflowed (hfirst.trans hover)]
    exact ⟨rfl, hbetween⟩
  · rw [Effect.both_of_not_overflowed hover,
      Effect.both_of_not_overflowed (hfirst.symm ▸ hover)]
    obtain ⟨hlast, hafter⟩ := hsecond.ends hbetween trivial
    exact ⟨congrArg₂ Outcome.both hfirst hlast, hafter⟩

theorem exprRel (below outer : Nat) :
    ExprRel Anything (.single fun _ Q body => Overlooks below outer Anything Q body) where
  ret hvalue := .of_outcome fun _ houtcome => by cases houtcome; exact hvalue
  bind hbody hnext := hbody.bind (fun _ => id) hnext
  fault := .of_outcome nofun
  overflow := .of_outcome nofun
  both hbody hsecond := hbody.both hsecond
  readVariable := .readVariable _

/-- Whatever is called, an empty block in a frame below makes no difference; and none in
the current frame either, from inside another block. -/
theorem activationRel (below outer : Nat) :
    ActivationRel Anything Anything
      (.single fun _ Q body => Overlooks below outer Anything Q body)
      (.single fun _ Q body => Overlooks below outer (Inside below outer) Q body) where
  expr := exprRel below outer
  embed hbody := hbody.mono fun _ _ => trivial
  bind hbody hnext := hbody.bind (fun hsame hinside => hinside.of_sameFrames hsame) hnext
  writeVariable _ := .writeVariable _ _
  declareLocal _ := .declareLocal _ _
  inBlock hbody := hbody.inBlock
  whileHandling _ hbody := hbody.whileHandling _
  handling hbody hhandler :=
    hbody.handling (fun hsame hinside => hinside.of_sameFrames hsame) fun exc =>
      hhandler exc trivial
  throwing _ := .of_outcome nofun
  raiseAgain := .raiseAgain
  exhaust := .of_outcome nofun
  inActivation hbody := hbody.inActivation _
  print := .modify (.modify fun before => ⟨.refl before.storage, rfl, rfl⟩)
    fun hpadded _ => hpadded.print _
  exhaustCall := .of_outcome nofun

end Overlooks

end Eval

variable (below outer : Nat) (subprograms : String → Option Subprogram) (unroll bound : Nat)

open Eval

theorem Expr.eval_overlooks (expr : Expr) :
    Overlooks below outer Anything Anything (expr.eval (callWithin subprograms unroll bound)) :=
  expr.eval_activation (Overlooks.activationRel below outer) .anything (.checkUnroll unroll)
    subprograms bound

theorem Stmt.exec_overlooks (rounds : Nat) (stmt : Stmt) :
    Overlooks below outer (Storage.Inside below outer) (Flow.Returns Anything)
      (stmt.exec ⟨callWithin subprograms unroll bound, rounds, unroll⟩) :=
  stmt.exec_activation (Overlooks.activationRel below outer) .anything (.checkUnroll unroll)
    subprograms bound rounds

end ArchSpec
