import ArchSpec.Proofs.Effects
import ArchSpec.Proofs.Relation.Closure

/-!
# Endings

What a computation does to the storage is said by two relations: one for all ends
but faults, and one for every end.  After a fault nothing else runs, except for the
other one of two operands, so the second relation has to be kept by less than the
first one.
-/

namespace ArchSpec

variable {α β : Type}

/-- Relations between the storage before and after a computation. -/
abbrev StorageRel := Storage Value → Storage Value → Prop

namespace Eval

/-- A computation from `before` ends without a fault as `T` says, and in any case as
`F` does. -/
structure Ends (T F : StorageRel) (Q : α → Prop) (before : State) (run : Outcome α × State) :
    Prop where
  value : ∀ value, run.1 = .done value → Q value
  settled : run.1.Nonfatal → T before.storage run.2.storage
  left : F before.storage run.2.storage

def Ending (T F : StorageRel) (Q : α → Prop) (body : Eval α) : Prop :=
  ∀ before, Ends T F Q before (body before)

/-- Ends may follow one another until there is a fault. -/
structure EndLaws (T F : StorageRel) : Prop where
  refl : ∀ storage, T storage storage
  weaken : ∀ {before after}, T before after → F before after
  trans : ∀ {before between after}, T before between → T between after → T before after
  follow : ∀ {before between after}, T before between → F between after → F before after

/-- A preorder may be kept by all ends. -/
theorem EndLaws.of_preorder {T : StorageRel} (hrefl : ∀ storage, T storage storage)
    (htrans : ∀ {before between after}, T before between → T between after → T before after) :
    EndLaws T T where
  refl := hrefl
  weaken := id
  trans := htrans
  follow := htrans

variable {T T' F F' : StorageRel} {Q : α → Prop} {Q' : β → Prop} {body : Eval α}

namespace Ends

variable {before between : State} {run : Outcome α × State}

theorem of_settled (hlaws : EndLaws T F) (hvalue : ∀ value, run.1 = .done value → Q value)
    (hsettled : T before.storage run.2.storage) : Ends T F Q before run :=
  ⟨hvalue, fun _ => hsettled, hlaws.weaken hsettled⟩

/-- A computation that begins where another one ended without a fault. -/
theorem following (hlaws : EndLaws T F) (hrun : Ends T F Q between run)
    (hfirst : T before.storage between.storage) : Ends T F Q before run :=
  ⟨hrun.value, fun hnonfatal => hlaws.trans hfirst (hrun.settled hnonfatal),
    hlaws.follow hfirst hrun.left⟩

theorem mono (hrun : Ends T F Q before run)
    (hT : T before.storage run.2.storage → T' before.storage run.2.storage)
    (hF : F before.storage run.2.storage → F' before.storage run.2.storage) :
    Ends T' F' Q before run :=
  ⟨hrun.value, fun hnonfatal => hT (hrun.settled hnonfatal), hF hrun.left⟩

end Ends

namespace Ending

theorem mono (hbody : Ending T F Q body) (hT : ∀ {before after}, T before after → T' before after)
    (hF : ∀ {before after}, F before after → F' before after) : Ending T' F' Q body :=
  fun before => (hbody before).mono hT hF

/-- What is entered before a computation is left after it, unless it ends with a
fault. -/
theorem within {enter leave : State → State} (hbody : Ending T F Q body)
    (hleave : ∀ before after : State, T (enter before).storage after.storage →
      T' before.storage (leave after).storage)
    (hleft : ∀ before after : State, F (enter before).storage after.storage →
      F' before.storage after.storage)
    (hweaken : ∀ {before after}, T' before after → F' before after) :
    Ending T' F' Q (Effect.within enter leave body) := by
  intro before
  have hend := hbody (enter before)
  rw [Effect.within]
  rcases hrun : body (enter before) with ⟨outcome, after⟩
  rw [hrun] at hend
  cases outcome with
  | done | thrown =>
      have hsettled := hleave before after (hend.settled trivial)
      exact ⟨hend.value, fun _ => hsettled, hweaken hsettled⟩
  | failed | overflowed | exhausted => exact ⟨by simp, False.elim, hleft before after hend.left⟩

section Laws

variable (hlaws : EndLaws T F)

include hlaws

theorem of_same (hsame : ∀ before, (body before).2.storage = before.storage)
    (hvalue : ∀ before value, (body before).1 = .done value → Q value) : Ending T F Q body :=
  fun before => .of_settled hlaws (hvalue before) (hsame before ▸ hlaws.refl _)

theorem outcome {outcome : Outcome α} (hvalue : ∀ value, outcome = .done value → Q value) :
    Ending T F Q fun state => (outcome, state) :=
  of_same hlaws (fun _ => rfl) fun _ => hvalue

theorem bind {next : α → Eval β} (hbody : Ending T F Q body)
    (hnext : ∀ value, Q value → Ending T F Q' (next value)) :
    Ending T F Q' (body >>= next) := by
  intro before
  change Ends T F Q' before (Effect.bind body next before)
  have hend := hbody before
  rw [Effect.bind]
  rcases hrun : body before with ⟨outcome, between⟩
  rw [hrun] at hend
  cases outcome with
  | done value =>
      exact (hnext value (hend.value value rfl) between).following hlaws (hend.settled trivial)
  | thrown exc => exact ⟨by simp, hend.settled, hend.left⟩
  | failed | overflowed | exhausted => exact ⟨by simp, False.elim, hend.left⟩

/-- The second one of two operands runs even after a fault of the first one. -/
theorem both {second : Eval β}
    (htrans : ∀ {before between after}, F before between → F between after → F before after)
    (hbody : Ending T F Q body) (hsecond : Ending T F Q' second) :
    Ending T F (fun values : α × β => Q values.1 ∧ Q' values.2) (Effect.both body second) := by
  intro before
  have hleft := hbody before
  have hright := hsecond (body before).2
  by_cases hover : (body before).1 = .overflowed
  · rw [Effect.both_of_overflowed hover]
    exact ⟨nofun, False.elim, hleft.left⟩
  · rw [Effect.both_of_not_overflowed hover]
    constructor
    · intro values hvalues
      obtain ⟨hfirst, hlast⟩ := Outcome.eq_done_of_both hvalues
      exact ⟨hleft.value _ hfirst, hright.value _ hlast⟩
    · intro hnonfatal
      obtain ⟨hfirst, hlast⟩ := Outcome.nonfatal_of_both hnonfatal
      exact hlaws.trans (hleft.settled hfirst) (hright.settled hlast)
    · exact htrans hleft.left hright.left

theorem handling {handler : Value → Eval α} (hbody : Ending T F Q body)
    (hhandler : ∀ exc, Ending T F Q (handler exc)) :
    Ending T F Q (Effect.handling body handler) := by
  intro before
  have hend := hbody before
  rw [Effect.handling]
  rcases hrun : body before with ⟨outcome, between⟩
  rw [hrun] at hend
  cases outcome with
  | thrown exc => exact (hhandler exc between).following hlaws (hend.settled trivial)
  | done | failed | overflowed | exhausted => exact hend

theorem whileHandling (exc : Value) (hbody : Ending T F Q body) :
    Ending T F Q (Eval.whileHandling exc body) :=
  hbody.within (fun _ _ => id) (fun _ _ => id) hlaws.weaken

theorem inBlock (hbody : Ending T F Q body)
    (hleave : ∀ {before after : Storage Value}, T before.pushBlock after → T before after.popBlock)
    (hleft : ∀ {before after : Storage Value}, F before.pushBlock after → F before after) :
    Ending T F Q (Eval.inBlock body) :=
  hbody.within (fun _ _ => hleave) (fun _ _ => hleft) hlaws.weaken

theorem readVariable (name : String) : Ending T F Anything (Eval.readVariable name) := by
  refine of_same hlaws (fun before => ?_) fun _ _ _ => trivial
  rw [Eval.readVariable]
  split <;> rfl

theorem writeVariable {name : String} {value : Value}
    (hassign : ∀ {storage updated : Storage Value} {scope : Scope},
      storage.assign name value = some (updated, scope) → T storage updated) :
    Ending T F Anything (Eval.writeVariable name value) := by
  intro before
  refine .of_settled hlaws (fun _ _ => trivial) ?_
  rw [Eval.writeVariable]
  split
  · rename_i storage scope hupdated
    exact hassign hupdated
  · exact hlaws.refl before.storage

theorem declareLocal {name : String} {value : Value}
    (hdeclare : ∀ storage : Storage Value, T storage (storage.declare name value)) :
    Ending T F Anything (Eval.declareLocal name value) :=
  fun before => .of_settled hlaws (fun _ _ => trivial) (hdeclare before.storage)

theorem raiseAgain : Ending T F Q (Eval.raiseAgain : Eval α) := by
  apply of_same hlaws
  · intro before
    rw [Eval.raiseAgain]
    split <;> rfl
  · intro before value hvalue
    rw [Eval.raiseAgain] at hvalue
    split at hvalue <;> nomatch hvalue

theorem checkUnroll (unroll finished : Nat) :
    Ending T F Anything (Eval.checkUnroll unroll finished) := by
  rw [Eval.checkUnroll]
  split <;> exact of_same hlaws (fun _ => rfl) fun _ _ _ => trivial

/-- Expressions do not change the storage by themselves. -/
theorem exprRel
    (htrans : ∀ {before between after}, F before between → F between after → F before after) :
    ExprRel Anything (.single fun _ Q body => Ending T F Q body) where
  ret hvalue := outcome hlaws fun _ houtcome => by cases houtcome; exact hvalue
  bind hbody hnext := hbody.bind hlaws hnext
  fault := outcome hlaws nofun
  overflow := outcome hlaws nofun
  both hleft hright := hleft.both hlaws htrans hright
  readVariable := readVariable hlaws _

end Laws

end Ending

end Eval

end ArchSpec
