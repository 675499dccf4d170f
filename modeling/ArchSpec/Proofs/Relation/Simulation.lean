import ArchSpec.Proofs.Relation.Closure

/-!
# Simulation

Two computations that start in related states end with the same outcome in
related states again.  Every step of a run keeps this, whatever the states
share, as long as they have the same variables and handle the same exceptions,
and equal changes keep them related.  The right computation may also be excused
from following a left one that gives up, or fails, or when it has no number left for
an activation itself.  For equal states simulation says that both computations are
one, as far as the left one gets.
-/

namespace ArchSpec

/-- A relation between states that runs cannot tell apart. -/
structure Simulation (S : State → State → Prop) : Prop where
  storage : ∀ {left right : State}, S left right → left.storage = right.storage
  handled : ∀ {left right : State}, S left right → left.handled = right.handled
  onStorage : ∀ {left right : State} (change : Storage Value → Storage Value), S left right →
    S (left.onStorage change) (right.onStorage change)
  pushHandled : ∀ {left right : State} (exc : Value), S left right →
    S (left.pushHandled exc) (right.pushHandled exc)
  popHandled : ∀ {left right : State}, S left right → S left.popHandled right.popHandled
  note : ∀ {left right : State} (access : Access) (name : String) (scope : Scope),
    S left right → S (left.note access name scope) (right.note access name scope)
  print : ∀ {left right : State} (text : String), S left right →
    S (left.print text) (right.print text)

theorem Simulation.eq : Simulation Eq where
  storage hsame := congrArg State.storage hsame
  handled hsame := congrArg State.handled hsame
  onStorage change hsame := congrArg (State.onStorage change) hsame
  pushHandled exc hsame := congrArg (State.pushHandled exc) hsame
  popHandled hsame := congrArg State.popHandled hsame
  note access name scope hsame := congrArg (State.note access name scope) hsame
  print text hsame := congrArg (State.print text) hsame

/-- Which ends the two computations need not share. -/
inductive Excuse where
  | nothing
  /-- The left one gives up. -/
  | exhaustion
  /-- The left one gives up, fails or overflows, or the right one has no number for an
  activation. -/
  | fatality

namespace Excuse

variable {α β : Type} {excuse : Excuse} {left : Outcome α} {right : Outcome β}

/-- The right computation need not end like this if the left one does. -/
def Covers (excuse : Excuse) : Outcome α → Prop
  | .done _ | .thrown _ => False
  | .failed _ | .overflowed => excuse = fatality
  | .exhausted => excuse ≠ nothing

/-- The right computation may overflow in this state, whatever the left one does. -/
def Crowded (excuse : Excuse) (after' : State) : Prop :=
  excuse = fatality ∧ ∃ subprogram, after'.storage.Full subprogram

theorem not_covers_nothing (outcome : Outcome α) : ¬nothing.Covers outcome := by
  cases outcome <;> simp [Covers]

theorem Crowded.covers_exhausted {after' : State} (hcrowded : excuse.Crowded after') :
    excuse.Covers (.exhausted : Outcome α) := by
  rw [hcrowded.1]
  exact nofun

theorem covers_exhaustion_iff {outcome : Outcome α} :
    exhaustion.Covers outcome ↔ outcome = .exhausted := by
  cases outcome <;> simp [Covers]

theorem Covers.both_left (hleft : excuse.Covers left) : excuse.Covers (left.both right) := by
  cases left <;> cases right <;> simp_all [Covers, Outcome.both]

theorem Covers.both_right (hright : excuse.Covers right) : excuse.Covers (left.both right) := by
  cases left <;> cases right <;> simp_all [Covers, Outcome.both]

end Excuse

/-- Two computations ended in the same way, or one of them in a way that is
excused. -/
inductive Matched {α : Type} (excuse : Excuse) (S : State → State → Prop) (Q : α → Prop) :
    Outcome α × State → Outcome α × State → Prop
  | ended (outcome : Outcome α) {after after' : State} (hstate : S after after')
      (hvalue : ∀ value, outcome = .done value → Q value) :
      Matched excuse S Q (outcome, after) (outcome, after')
  | excused (outcome : Outcome α) (hcovers : excuse.Covers outcome) (after : State)
      (right : Outcome α × State) : Matched excuse S Q (outcome, after) right
  | crowded (left : Outcome α × State) {after' : State} (hcrowded : excuse.Crowded after') :
      Matched excuse S Q left (.overflowed, after')

/-- From related states two computations end in the same way. -/
def EvalRel.simulating (excuse : Excuse) (S : State → State → Prop) : EvalRel :=
  fun _ Q left right => ∀ before before', S before before' →
    Matched excuse S Q (left before) (right before')

namespace Simulation

variable {α β : Type} {excuse : Excuse} {S : State → State → Prop}
variable {Q : α → Prop} {Q' : β → Prop}

theorem modify {change change' : State → State}
    (hchange : ∀ before before', S before before' → S (change before) (change' before')) :
    EvalRel.simulating excuse S Unit Anything (Effect.modify change) (Effect.modify change') :=
  fun before before' hbefore => .ended _ (hchange before before' hbefore) fun _ _ => trivial

theorem bind {left right : Eval α} {next next' : α → Eval β}
    (hfirst : EvalRel.simulating excuse S α Q left right)
    (hnext : ∀ value, Q value → EvalRel.simulating excuse S β Q' (next value) (next' value)) :
    EvalRel.simulating excuse S β Q' (left >>= next) (right >>= next') := by
  intro before before' hbefore
  change Matched excuse S Q' (Effect.bind left next before) (Effect.bind right next' before')
  have hend := hfirst before before' hbefore
  rw [Effect.bind, Effect.bind]
  generalize left before = ended at hend ⊢
  generalize right before' = ended' at hend ⊢
  cases hend with
  | excused outcome hcovers after =>
      cases outcome with
      | done | thrown => exact hcovers.elim
      | failed cause => exact .excused (.failed cause : Outcome β) hcovers after _
      | overflowed => exact .excused (.overflowed : Outcome β) hcovers after _
      | exhausted => exact .excused (.exhausted : Outcome β) hcovers after _
  | crowded _ hcrowded => exact .crowded _ hcrowded
  | ended outcome hafter hvalue =>
      cases outcome with
      | done value => exact hnext value (hvalue value rfl) _ _ hafter
      | thrown | failed | overflowed | exhausted => exact .ended _ hafter (by simp)

theorem both {left right : Eval α} {left' right' : Eval β}
    (hfirst : EvalRel.simulating excuse S α Q left right)
    (hsecond : EvalRel.simulating excuse S β Q' left' right') :
    EvalRel.simulating excuse S (α × β) (fun values => Q values.1 ∧ Q' values.2)
      (Effect.both left left') (Effect.both right right') := by
  intro before before' hbefore
  have hend := hfirst before before' hbefore
  by_cases hover : (left before).1 = .overflowed
  · rw [Effect.both_of_overflowed hover]
    generalize left before = ended at hend hover ⊢
    generalize hright : right before' = ended' at hend
    cases hend with
    | excused _ hcovers after =>
        subst hover
        exact .excused (.overflowed : Outcome (α × β)) hcovers after _
    | crowded _ hcrowded =>
        rw [Effect.both_of_overflowed (by rw [hright]), hright]
        exact .crowded _ hcrowded
    | ended _ hafter =>
        subst hover
        rw [Effect.both_of_overflowed (by rw [hright]), hright]
        exact .ended _ hafter nofun
  · rw [Effect.both_of_not_overflowed hover]
    generalize left before = ended at hend hover ⊢
    generalize hright : right before' = ended' at hend
    cases hend with
    | excused _ hcovers => exact .excused _ hcovers.both_left _ _
    | crowded _ hcrowded =>
        rw [Effect.both_of_overflowed (by rw [hright]), hright]
        exact .crowded _ hcrowded
    | @ended outcome after after' hafter hvalue =>
        rw [Effect.both_of_not_overflowed (by rw [hright]; exact hover), hright]
        have hend' := hsecond after after' hafter
        generalize left' after = last at hend' ⊢
        generalize right' after' = last' at hend' ⊢
        cases hend' with
        | excused outcome' hcovers after => exact .excused _ hcovers.both_right after _
        | crowded last hcrowded =>
            cases outcome with
            | exhausted => exact .excused _ hcrowded.covers_exhausted.both_left _ _
            | done | thrown | failed | overflowed => exact .crowded _ hcrowded
        | ended outcome' hlast hvalue' =>
            refine .ended _ hlast fun values hvalues => ?_
            obtain ⟨hone, htwo⟩ := Outcome.eq_done_of_both hvalues
            exact ⟨hvalue _ hone, hvalue' _ htwo⟩

theorem within {enter leave : State → State} {left right : Eval α}
    (henter : ∀ {before before'}, S before before' → S (enter before) (enter before'))
    (hleave : ∀ {after after'}, S after after' → S (leave after) (leave after'))
    (hbody : EvalRel.simulating excuse S α Q left right) :
    EvalRel.simulating excuse S α Q (Effect.within enter leave left)
      (Effect.within enter leave right) := by
  intro before before' hbefore
  have hend := hbody _ _ (henter hbefore)
  rw [Effect.within, Effect.within]
  generalize left (enter before) = ended at hend ⊢
  generalize right (enter before') = ended' at hend ⊢
  cases hend with
  | excused outcome hcovers after =>
      cases outcome with
      | done | thrown => exact hcovers.elim
      | failed | overflowed | exhausted => exact .excused _ hcovers after _
  | crowded _ hcrowded => exact .crowded _ hcrowded
  | ended outcome hafter hvalue =>
      cases outcome with
      | done | thrown => exact .ended _ (hleave hafter) hvalue
      | failed | overflowed | exhausted => exact .ended _ hafter hvalue

theorem handling {left right : Eval α} {handler handler' : Value → Eval α}
    (hbody : EvalRel.simulating excuse S α Q left right)
    (hhandler : ∀ exc, EvalRel.simulating excuse S α Q (handler exc) (handler' exc)) :
    EvalRel.simulating excuse S α Q (Effect.handling left handler)
      (Effect.handling right handler') := by
  intro before before' hbefore
  have hend := hbody before before' hbefore
  rw [Effect.handling, Effect.handling]
  generalize left before = ended at hend ⊢
  generalize right before' = ended' at hend ⊢
  cases hend with
  | excused outcome hcovers after =>
      cases outcome with
      | done | thrown => exact hcovers.elim
      | failed | overflowed | exhausted => exact .excused _ hcovers after _
  | crowded _ hcrowded => exact .crowded _ hcrowded
  | ended outcome hafter hvalue =>
      cases outcome with
      | thrown exc => exact hhandler exc _ _ hafter
      | done | failed | overflowed | exhausted => exact .ended _ hafter hvalue

variable (hS : Simulation S)

include hS

theorem readVariable (name : String) :
    EvalRel.simulating excuse S Value Anything (Eval.readVariable name)
      (Eval.readVariable name) := by
  intro before before' hbefore
  rw [Eval.readVariable, Eval.readVariable, hS.storage hbefore]
  cases before'.storage.lookup name with
  | none => exact .ended _ hbefore fun _ _ => trivial
  | some found => exact .ended _ (hS.note _ _ _ hbefore) fun _ _ => trivial

theorem writeVariable (name : String) (value : Value) :
    EvalRel.simulating excuse S Unit Anything (Eval.writeVariable name value)
      (Eval.writeVariable name value) := by
  intro before before' hbefore
  rw [Eval.writeVariable, Eval.writeVariable, hS.storage hbefore]
  cases before'.storage.assign name value with
  | none => exact .ended _ hbefore fun _ _ => trivial
  | some assigned =>
      have hassigned := hS.onStorage (fun _ => assigned.1) hbefore
      exact .ended _ (hS.note _ _ _ hassigned) fun _ _ => trivial

theorem raiseAgain : EvalRel.simulating excuse S α Q Eval.raiseAgain Eval.raiseAgain := by
  intro before before' hbefore
  rw [Eval.raiseAgain, Eval.raiseAgain, hS.handled hbefore]
  cases before'.handled with
  | nil | cons => exact .ended _ hbefore (by simp)

theorem countActivation (subprogram : String) :
    EvalRel.simulating excuse S Unit Anything (Eval.countActivation subprogram)
      (Eval.countActivation subprogram) := by
  intro before before' hbefore
  rw [Eval.countActivation, Eval.countActivation, hS.storage hbefore]
  split <;> exact .ended _ hbefore fun _ _ => trivial

/-- Every step of a run keeps a simulation. -/
theorem runRel : RunRel Anything Anything (EvalRel.simulating excuse S) where
  ret hvalue _ _ hbefore := .ended _ hbefore fun _ houtcome => by cases houtcome; exact hvalue
  bind := bind
  fault _ _ hbefore := .ended _ hbefore nofun
  overflow _ _ hbefore := .ended _ hbefore nofun
  both := both
  readVariable := hS.readVariable _
  writeVariable _ := hS.writeVariable _ _
  declareLocal _ := modify fun before before' hbefore => by
    rw [hS.storage hbefore]
    exact hS.onStorage _ (hS.note _ _ _ hbefore)
  inBlock := within (hS.onStorage _) (hS.onStorage _)
  whileHandling _ := within (hS.pushHandled _) hS.popHandled
  handling hbody hhandler := handling hbody fun exc => hhandler exc trivial
  throwing _ _ _ hbefore := .ended _ hbefore nofun
  raiseAgain := hS.raiseAgain
  exhaust _ _ hbefore := .ended _ hbefore nofun
  inActivation hbody := bind (hS.countActivation _) fun _ _ =>
    within (hS.onStorage _) (hS.onStorage _) hbody
  print := modify fun _ _ hbefore => hS.print _ hbefore
  declareGlobal _ := modify fun before before' hbefore => by
    rw [hS.storage hbefore]
    exact hS.note _ _ _ (hS.onStorage _ hbefore)
  whileInitialising := within (hS.onStorage _) (hS.onStorage _)

end Simulation

/-! ## What a simulation says of whole computations -/

section Ends

variable {α : Type} {Q : α → Prop} {excuse : Excuse} {S : State → State → Prop}

theorem EvalRel.simulating_refl (excuse : Excuse) (body : Eval α) :
    EvalRel.simulating excuse Eq α Anything body body := by
  intro before before' hsame
  rw [hsame]
  exact .ended (body before').1 rfl fun _ _ => trivial

/-- Without an excuse two computations differ in their states only. -/
theorem Matched.exists_eq {left right : Outcome α × State}
    (hmatched : Matched .nothing S Q left right) :
    ∃ outcome after after', left = (outcome, after) ∧ right = (outcome, after') ∧
      S after after' := by
  cases hmatched with
  | ended outcome hstate => exact ⟨outcome, _, _, rfl, rfl, hstate⟩
  | excused outcome hcovers => exact absurd hcovers (Excuse.not_covers_nothing outcome)
  | crowded _ hcrowded => nomatch hcrowded.1

/-- From equal states, what is not excused is simulated by itself only. -/
theorem Matched.eq_of_ends {left right : Outcome α × State}
    (hmatched : Matched excuse Eq Q left right) (hexcuse : excuse ≠ .fatality)
    (hends : ¬excuse.Covers left.1) : right = left := by
  cases hmatched with
  | ended outcome hstate => rw [hstate]
  | excused outcome hcovers => exact absurd hcovers hends
  | crowded _ hcrowded => exact absurd hcrowded.1 hexcuse

theorem EvalRel.eq_of_simulating {left right : Eval α}
    (hrelated : EvalRel.simulating .nothing Eq α Q left right) : left = right := by
  funext before
  exact ((hrelated before before rfl).eq_of_ends nofun (Excuse.not_covers_nothing _)).symm

end Ends

end ArchSpec
