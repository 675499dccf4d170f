import ArchSpec.Proofs.Relation.Transport

/-!
# Evaluation without calls

An expression without calls changes nothing but the record of accesses.  It ends
in the same way in all states that have the same values under the names that it
reads, whatever else differs between them.
-/

namespace ArchSpec

namespace State

/-- Nothing has happened but accesses that were recorded. -/
def Quiet (before after : State) : Prop := ∃ recorder, after = { before with recorder }

/-- The variables of a list have the same values in both states. -/
def AgreeOn (names : List String) (left right : State) : Prop :=
  ∀ name ∈ names,
    (left.storage.lookup name).map Prod.fst = (right.storage.lookup name).map Prod.fst

variable {before between after left left' right right' : State} {names : List String}

namespace Quiet

theorem refl (state : State) : Quiet state state := ⟨state.recorder, rfl⟩

theorem trans (hfirst : Quiet before between) (hsecond : Quiet between after) :
    Quiet before after := by
  obtain ⟨_, rfl⟩ := hfirst
  obtain ⟨recorder, rfl⟩ := hsecond
  exact ⟨recorder, rfl⟩

theorem note (access : Access) (name : String) (scope : Scope) (state : State) :
    Quiet state (state.note access name scope) := ⟨_, rfl⟩

theorem lift {α : Type} (result : Except Fault α) (state : State) :
    Quiet state (Effect.lift result state).2 := by
  cases result <;> exact .refl state

theorem liftSized {α : Type} (result : Except Fault (Option α)) (state : State) :
    Quiet state (Effect.liftSized result state).2 := by
  match result with
  | .ok (some _) | .ok none | .error _ => exact .refl state

theorem readVariable (name : String) (state : State) :
    Quiet state (Eval.readVariable name state).2 := by
  rw [Eval.readVariable]
  split
  · exact .note ..
  · exact .refl state

theorem bind {α β : Type} {first : Eval α} {next : α → Eval β}
    (hfirst : Quiet before (first before).2)
    (hnext : ∀ value state, Quiet state (next value state).2) :
    Quiet before ((first >>= next) before).2 := by
  change Quiet before (Effect.bind first next before).2
  rw [Effect.bind]
  rcases hrun : first before with ⟨outcome, between⟩
  rw [hrun] at hfirst
  cases outcome with
  | done value => exact hfirst.trans (hnext value between)
  | thrown | failed | overflowed | exhausted => exact hfirst

theorem storage_eq (hquiet : Quiet before after) : after.storage = before.storage := by
  obtain ⟨_, rfl⟩ := hquiet
  rfl

end Quiet

namespace AgreeOn

theorem of_storage_eq (hstorage : left.storage = right.storage) : AgreeOn names left right :=
  fun _ _ => by rw [hstorage]

theorem of_quiet (hagree : AgreeOn names left right) (hleft : Quiet left left')
    (hright : Quiet right right') : AgreeOn names left' right' := by
  intro name hname
  rw [hleft.storage_eq, hright.storage_eq]
  exact hagree name hname

end AgreeOn

end State

open State

/-- Two quiet computations end in the same way. -/
structure QuietEnds {α : Type} (Q : α → Prop) (before before' : State)
    (left right : Outcome α × State) : Prop where
  outcome : left.1 = right.1
  value : ∀ value, left.1 = .done value → Q value
  quiet : Quiet before left.2
  quiet' : Quiet before' right.2

/-- From states that agree on some names, two computations are quiet and end in
the same way. -/
def EvalRel.agreeing (names : List String) : EvalRel := fun _ Q left right =>
  ∀ before before', AgreeOn names before before' →
    QuietEnds Q before before' (left before) (right before')

section Agreeing

variable {names : List String}

theorem EvalRel.agreeing_of_outcome {α : Type} {Q : α → Prop} {outcome : Outcome α}
    (hvalue : ∀ value, outcome = .done value → Q value) :
    EvalRel.agreeing names α Q (fun state => (outcome, state)) (fun state => (outcome, state)) :=
  fun before before' _ => ⟨rfl, hvalue, .refl before, .refl before'⟩

theorem EvalRel.agreeing_bind {α β : Type} {Q : α → Prop} {Q' : β → Prop} {left right : Eval α}
    {next next' : α → Eval β} (hfirst : EvalRel.agreeing names α Q left right)
    (hnext : ∀ value, Q value → EvalRel.agreeing names β Q' (next value) (next' value)) :
    EvalRel.agreeing names β Q' (left >>= next) (right >>= next') := by
  intro before before' hagree
  have hend := hfirst before before' hagree
  change QuietEnds Q' before before' (Effect.bind left next before)
    (Effect.bind right next' before')
  rw [Effect.bind, Effect.bind]
  rcases hleft : left before with ⟨outcome, between⟩
  rcases hright : right before' with ⟨outcome', between'⟩
  rw [hleft, hright] at hend
  obtain rfl : outcome = outcome' := hend.outcome
  cases outcome with
  | done value =>
      have hrest := hnext value (hend.value value rfl) between between'
        (hagree.of_quiet hend.quiet hend.quiet')
      exact ⟨hrest.outcome, hrest.value, hend.quiet.trans hrest.quiet,
        hend.quiet'.trans hrest.quiet'⟩
  | thrown | failed | overflowed | exhausted =>
      exact ⟨rfl, by simp, hend.quiet, hend.quiet'⟩

theorem EvalRel.agreeing_both {α β : Type} {Q : α → Prop} {Q' : β → Prop} {left right : Eval α}
    {left' right' : Eval β} (hfirst : EvalRel.agreeing names α Q left right)
    (hsecond : EvalRel.agreeing names β Q' left' right') :
    EvalRel.agreeing names (α × β) (fun values => Q values.1 ∧ Q' values.2)
      (Effect.both left left') (Effect.both right right') := by
  intro before before' hagree
  have hend := hfirst before before' hagree
  have hend' := hsecond (left before).2 (right before').2
    (hagree.of_quiet hend.quiet hend.quiet')
  by_cases hover : (left before).1 = .overflowed
  · rw [Effect.both_of_overflowed hover, Effect.both_of_overflowed (hend.outcome.symm.trans hover)]
    exact ⟨rfl, nofun, hend.quiet, hend.quiet'⟩
  · rw [Effect.both_of_not_overflowed hover,
      Effect.both_of_not_overflowed (hend.outcome ▸ hover)]
    constructor
    · rw [hend.outcome, hend'.outcome]
    · intro values hvalues
      obtain ⟨hleft, hright⟩ := Outcome.eq_done_of_both hvalues
      exact ⟨hend.value _ hleft, hend'.value _ hright⟩
    · exact hend.quiet.trans hend'.quiet
    · exact hend.quiet'.trans hend'.quiet'

theorem EvalRel.agreeing_pureRel : PureRel (EvalRel.agreeing names) where
  ret hvalue := EvalRel.agreeing_of_outcome fun _ houtcome => by cases houtcome; exact hvalue
  bind hfirst hnext := EvalRel.agreeing_bind hfirst hnext
  fault := EvalRel.agreeing_of_outcome fun _ houtcome => nomatch houtcome
  overflow := EvalRel.agreeing_of_outcome fun _ houtcome => nomatch houtcome
  both hfirst hsecond := EvalRel.agreeing_both hfirst hsecond

theorem EvalRel.agreeing_readVariable {name : String} (hname : name ∈ names) :
    EvalRel.agreeing names Value Anything (Eval.readVariable name) (Eval.readVariable name) := by
  intro before before' hagree
  have hsame := hagree name hname
  simp only [Eval.readVariable]
  cases hleft : before.storage.lookup name with
  | none =>
      rw [hleft] at hsame
      have hright : before'.storage.lookup name = none := Option.map_eq_none_iff.mp hsame.symm
      rw [hright]
      exact ⟨rfl, fun _ _ => trivial, .refl before, .refl before'⟩
  | some found =>
      rw [hleft] at hsame
      obtain ⟨found', hright, hvalue⟩ := Option.map_eq_some_iff.mp hsame.symm
      rw [hright]
      exact ⟨congrArg Outcome.done hvalue.symm, fun _ _ => trivial, .note .read name found.2 before,
        .note .read name found'.2 before'⟩

end Agreeing

/-- The positions of slices without calls are the same in states that agree on
their variables. -/
theorem SliceExpr.evalAll_agreeing (calls : Calls) {slices : List SliceExpr} {names : List String}
    (hfree : SliceExpr.allCallFree slices = true)
    (hnames : ∀ name ∈ SliceExpr.allVariables slices, name ∈ names) :
    EvalRel.agreeing names (List (Value × Value)) Anything (SliceExpr.evalAll calls slices)
      (SliceExpr.evalAll calls slices) := by
  have hcalls : CallsRel Anything (EvalRel.agreeing names) calls calls
      (SliceExpr.allCalls slices) := by
    rw [SliceExpr.allCalls_eq_nil hfree]
    exact fun _ hsite => nomatch hsite
  exact SliceExpr.evalAll_relatedOn EvalRel.agreeing_pureRel .anything slices hcalls
    fun name hname => EvalRel.agreeing_readVariable (hnames name hname)

/-- To find the positions of slices without calls is quiet. -/
theorem SliceExpr.evalAll_quiet (calls : Calls) {slices : List SliceExpr}
    (hfree : SliceExpr.allCallFree slices = true) (state : State) :
    state.Quiet (SliceExpr.evalAll calls slices state).2 :=
  (SliceExpr.evalAll_agreeing calls hfree (fun _ hname => hname) state state
    (.of_storage_eq rfl)).quiet

end ArchSpec
