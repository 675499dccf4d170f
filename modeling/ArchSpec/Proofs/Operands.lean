import ArchSpec.Proofs.CallFree
import ArchSpec.Proofs.Traces.Order

/-!
# The order of operands

Operands without calls are all evaluated before anything is said about a failure
of one of them.  Such an operand does nothing but read variables, so it comes to
the same to evaluate operands strictly from left to right and to stop at the first
one that throws or fails; only accesses that were recorded after a failure tell the
difference, unless an operand overflows that strictly would not have been reached
any more.  Two operands without calls may even change places.
-/

namespace ArchSpec

variable {α β : Type}

/-- A value with a property, a fault or an overflow. -/
def Outcome.Answers (Q : α → Prop) : Outcome α → Prop
  | .done value => Q value
  | .failed _ | .overflowed => True
  | .thrown _ | .exhausted => False

theorem Outcome.both_eq_done_iff {left : Outcome α} {right : Outcome β} {value : α} {value' : β} :
    left.both right = .done (value, value') ↔ left = .done value ∧ right = .done value' := by
  constructor
  · exact eq_done_of_both
  · rintro ⟨rfl, rfl⟩
    rfl

namespace Effect

variable {σ : Type} {first : Effect σ α} {second : Effect σ β} {before between after : σ}
variable {outcome : Outcome α} {outcome' : Outcome β}

theorem both_of_runs (hfirst : first before = (outcome, between))
    (hsecond : second between = (outcome', after)) (hends : outcome ≠ .overflowed) :
    both first second before = (outcome.both outcome', after) := by
  rw [both_of_not_overflowed (by rw [hfirst]; exact hends), hfirst, hsecond]

/-- Only two values make a pair. -/
theorem both_eq_done_iff (hfirst : first before = (outcome, between))
    (hsecond : second between = (outcome', after)) {value : α} {value' : β} {ended : σ} :
    both first second before = (.done (value, value'), ended) ↔
      (outcome = .done value ∧ outcome' = .done value') ∧ after = ended := by
  by_cases hover : outcome = .overflowed
  · subst hover
    rw [both_of_overflowed (by rw [hfirst])]
    simp
  · rw [both_of_runs hfirst hsecond hover, Prod.mk.injEq, Outcome.both_eq_done_iff]

theorem map_eq_overflowed_iff (f : α → β) :
    ((first >>= fun value => pure (f value)) before).1 = .overflowed ↔
      (first before).1 = .overflowed := by
  change (bind first (fun value => ret (f value)) before).1 = _ ↔ _
  rw [bind]
  rcases first before with ⟨outcome, after⟩
  cases outcome <;> simp [ret]

end Effect

namespace State

/-- The state after accesses that are recorded. -/
def noteAll (state : State) (events : List Event) : State :=
  { state with recorder := state.recorder.recordAll events }

theorem Quiet.noteAll (state : State) (events : List Event) : state.Quiet (state.noteAll events) :=
  ⟨_, rfl⟩

theorem noteAll_append (state : State) (events events' : List Event) :
    state.noteAll (events ++ events') = (state.noteAll events).noteAll events' := by
  simp only [State.noteAll, Recorder.recordAll_append]

theorem noteAll_comm (state : State) (events events' : List Event) :
    state.noteAll (events ++ events') = state.noteAll (events' ++ events) := by
  simp only [State.noteAll, Recorder.recordAll_perm List.perm_append_comm]

end State

/-! ## Computations that only read -/

namespace Eval

/-- A computation records accesses and then has a value or fails, and what was
recorded before makes no difference to it. -/
def Observes (Q : α → Prop) (body : Eval α) : Prop :=
  ∀ before : State, ∃ (outcome : Outcome α) (events : List Event), outcome.Answers Q ∧
    ∀ between, before.Quiet between → body between = (outcome, between.noteAll events)

namespace Observes

variable {Q : α → Prop} {Q' : β → Prop} {body : Eval α}

theorem of_outcome {outcome : Outcome α} (hanswers : outcome.Answers Q) :
    Observes Q fun state => (outcome, state) :=
  fun _ => ⟨outcome, [], hanswers, fun _ _ => rfl⟩

theorem bind {next : α → Eval β} (hbody : Observes Q body)
    (hnext : ∀ value, Q value → Observes Q' (next value)) : Observes Q' (body >>= next) := by
  intro before
  obtain ⟨outcome, events, hanswers, hrun⟩ := hbody before
  change ∃ _ _, _ ∧ ∀ between, _ → Effect.bind body next between = _
  simp only [Effect.bind]
  cases outcome with
  | done value =>
      obtain ⟨outcome', events', hanswers', hrun'⟩ := hnext value hanswers before
      refine ⟨outcome', events ++ events', hanswers', fun between hquiet => ?_⟩
      rw [hrun between hquiet, State.noteAll_append]
      exact hrun' _ (hquiet.trans (.noteAll between events))
  | failed cause => exact ⟨.failed cause, events, trivial, fun between hquiet => by
      rw [hrun between hquiet]⟩
  | overflowed => exact ⟨.overflowed, events, trivial, fun between hquiet => by
      rw [hrun between hquiet]⟩
  | thrown | exhausted => exact hanswers.elim

theorem both {second : Eval β} (hbody : Observes Q body) (hsecond : Observes Q' second) :
    Observes (fun values : α × β => Q values.1 ∧ Q' values.2) (Effect.both body second) := by
  intro before
  obtain ⟨outcome, events, hanswers, hrun⟩ := hbody before
  obtain ⟨outcome', events', hanswers', hrun'⟩ := hsecond before
  by_cases hover : outcome = .overflowed
  · subst hover
    refine ⟨.overflowed, events, trivial, fun between hquiet => ?_⟩
    rw [Effect.both_of_overflowed (by rw [hrun between hquiet]), hrun between hquiet]
  · refine ⟨outcome.both outcome', events ++ events', ?_, fun between hquiet => ?_⟩
    · cases outcome <;> cases outcome' <;>
        first | exact hanswers.elim | exact hanswers'.elim | exact ⟨hanswers, hanswers'⟩ | trivial
    · rw [State.noteAll_append]
      exact Effect.both_of_runs (hrun between hquiet)
        (hrun' _ (hquiet.trans (.noteAll between events))) hover

theorem readVariable (name : String) : Observes Anything (Eval.readVariable name) := by
  intro before
  cases hlookup : before.storage.lookup name with
  | none =>
      refine ⟨.failed (.undefinedIdentifier name), [], trivial, fun between hquiet => ?_⟩
      rw [Eval.readVariable, hquiet.storage_eq, hlookup]
      rfl
  | some found =>
      refine ⟨.done found.1, [⟨.read, name, found.2⟩], trivial, fun between hquiet => ?_⟩
      rw [Eval.readVariable, hquiet.storage_eq, hlookup]
      rfl

theorem quiet (hbody : Observes Q body) (before : State) : before.Quiet (body before).2 := by
  obtain ⟨_, events, _, hrun⟩ := hbody before
  rw [hrun before (.refl before)]
  exact .noteAll before events

/-- What a computation that only reads ends with is not changed by another one. -/
theorem outcome_eq (hbody : Observes Q body) {before between : State}
    (hquiet : before.Quiet between) : (body between).1 = (body before).1 := by
  obtain ⟨outcome, events, _, hrun⟩ := hbody before
  rw [hrun between hquiet, hrun before (.refl before)]

theorem pureRel : PureRel (.single fun _ Q body => Observes Q body) where
  ret hvalue := of_outcome hvalue
  bind hbody hnext := hbody.bind hnext
  fault := of_outcome trivial
  overflow := of_outcome trivial
  both hleft hright := hleft.both hright

end Observes

end Eval

open Eval

/-- An expression without calls makes no use of what calls mean. -/
theorem Expr.observes (calls : Calls) {expr : Expr} (hfree : expr.callFree = true) :
    Observes Anything (expr.eval calls) := by
  have hcalls : CallsRel Anything (.single fun _ Q body => Observes Q body) calls calls
      expr.calls := by
    rw [Expr.calls_eq_nil hfree]
    exact fun _ hsite => nomatch hsite
  exact Expr.eval_relatedOn Observes.pureRel .anything expr hcalls fun name _ => .readVariable name

theorem Expr.observes_evalAll (calls : Calls) {exprs : List Expr}
    (hfree : Expr.allCallFree exprs = true) : Observes Anything (Expr.evalAll calls exprs) := by
  have hcalls : CallsRel Anything (.single fun _ Q body => Observes Q body) calls calls
      (Expr.allCalls exprs) := by
    rw [Expr.allCalls_eq_nil hfree]
    exact fun _ hsite => nomatch hsite
  exact Observes.pureRel.weaken (Expr.evalAll_relatedOn Observes.pureRel .anything exprs hcalls
    fun name _ => .readVariable name) fun _ _ => trivial

/-! ## One order and another -/

/-- Two runs ended in the same way, and with the same states, except for accesses
that one of them recorded before a fault. -/
structure SameEnd (run run' : Outcome α × State) : Prop where
  outcome : run.1 = run'.1
  quiet : run'.2.Quiet run.2
  state : run.1.Nonfatal → run.2 = run'.2

theorem SameEnd.refl (run : Outcome α × State) : SameEnd run run :=
  ⟨rfl, .refl run.2, fun _ => rfl⟩

theorem SameEnd.trans {run run' run'' : Outcome α × State} (hfirst : SameEnd run run')
    (hsecond : SameEnd run' run'') : SameEnd run run'' where
  outcome := hfirst.outcome.trans hsecond.outcome
  quiet := hsecond.quiet.trans hfirst.quiet
  state hnonfatal := (hfirst.state hnonfatal).trans (hsecond.state (hfirst.outcome ▸ hnonfatal))

/-- Sequences whose parts end in the same way do so too. -/
theorem SameEnd.bind {first first' : Eval α} {next next' : α → Eval β} {before : State}
    (hfirst : SameEnd (first before) (first' before))
    (hnext : ∀ value after, first before = (.done value, after) →
      SameEnd (next value after) (next' value after)) :
    SameEnd ((first >>= next) before) ((first' >>= next') before) := by
  change SameEnd (Effect.bind first next before) (Effect.bind first' next' before)
  rw [Effect.bind, Effect.bind]
  generalize first before = run at hfirst hnext ⊢
  generalize first' before = run' at hfirst ⊢
  rcases run with ⟨outcome, after⟩
  rcases run' with ⟨outcome', after'⟩
  obtain rfl : outcome = outcome' := hfirst.outcome
  cases outcome with
  | done value =>
      obtain rfl : after = after' := hfirst.state trivial
      exact hnext value after rfl
  | thrown exc =>
      obtain rfl : after = after' := hfirst.state trivial
      exact .refl _
  | failed | overflowed | exhausted => exact ⟨rfl, hfirst.quiet, False.elim⟩

namespace Eval

/-- Evaluates one operand after the other; one that throws or fails is the last. -/
def inOrder (first : Eval α) (second : Eval β) : Eval (α × β) := do
  let left ← first
  let right ← second
  return (left, right)

variable {Q : α → Prop} {Q' : β → Prop} {first : Eval α} {second : Eval β} {before : State}

/-- After a value, both operands are evaluated in either case. -/
theorem both_eq_inOrder {value : α} {between : State}
    (hfirst : first before = (.done value, between)) :
    Effect.both first second before = inOrder first second before := by
  rcases hsecond : second between with ⟨outcome, after⟩
  rw [Effect.both_of_runs hfirst hsecond nofun, inOrder, Effect.bind_of_done hfirst]
  change _ = Effect.bind second (fun right => Effect.ret (value, right)) between
  rw [Effect.bind, hsecond]
  cases outcome <;> rfl

/-- The second operand is not reached. -/
theorem inOrder_of_failed (second : Eval β) {cause : Fault} {between : State}
    (hfirst : first before = (.failed cause, between)) :
    inOrder first second before = (.failed cause, between) := by
  change Effect.bind first _ before = _
  rw [Effect.bind, hfirst]

theorem inOrder_of_overflowed (second : Eval β) {between : State}
    (hfirst : first before = (.overflowed, between)) :
    inOrder first second before = (.overflowed, between) := by
  change Effect.bind first _ before = _
  rw [Effect.bind, hfirst]

theorem pair_of_done {free : Bool} {value : α} {between : State}
    (hfirst : first before = (.done value, between)) :
    pair free first second before = inOrder first second before := by
  cases free with
  | false => rfl
  | true => exact both_eq_inOrder hfirst

theorem inOrder_eq_done_iff {value : α} {value' : β} {after : State} :
    inOrder first second before = (.done (value, value'), after) ↔
      Effect.both first second before = (.done (value, value'), after) := by
  constructor
  · intro hrun
    obtain ⟨left, between, hfirst, _⟩ := Effect.of_bind_done hrun
    rwa [both_eq_inOrder hfirst]
  · intro hrun
    rcases hleft : first before with ⟨outcome, between⟩
    rcases hright : second between with ⟨outcome', _⟩
    obtain ⟨⟨rfl, _⟩, _⟩ := (Effect.both_eq_done_iff hleft hright).mp hrun
    rwa [← both_eq_inOrder hleft]

/-- Operands that only read end as they do in order, unless the first one fails and
the second one overflows. -/
theorem both_sameEnd_inOrder_iff (hfirst : Observes Q first) (hsecond : Observes Q' second) :
    SameEnd (Effect.both first second before) (inOrder first second before) ↔
      ¬((∃ cause, (first before).1 = .failed cause) ∧
        (second (first before).2).1 = .overflowed) := by
  obtain ⟨outcome, events, hanswers, hrun⟩ := hfirst before
  obtain ⟨outcome', events', hanswers', hrun'⟩ := hsecond before
  have hleft := hrun before (.refl before)
  have hright := hrun' _ (.noteAll before events)
  rw [hleft, hright]
  cases outcome with
  | done value =>
      rw [both_eq_inOrder hleft]
      simp [SameEnd.refl]
  | failed cause =>
      rw [inOrder_of_failed second hleft, Effect.both_of_runs hleft hright nofun]
      cases outcome' with
      | done | failed =>
          exact ⟨fun _ => by simp, fun _ => ⟨rfl, .noteAll _ events', False.elim⟩⟩
      | overflowed =>
          exact iff_of_false (fun hend => nomatch hend.outcome) fun hcalm =>
            hcalm ⟨⟨cause, rfl⟩, rfl⟩
      | thrown | exhausted => exact hanswers'.elim
  | overflowed =>
      rw [inOrder_of_overflowed second hleft, Effect.both_of_overflowed (by rw [hleft]), hleft]
      exact ⟨fun _ => by simp, fun _ => SameEnd.refl _⟩
  | thrown | exhausted => exact hanswers.elim

theorem pair_sameEnd_inOrder_iff {free : Bool} (hfirst : free = true → Observes Q first)
    (hsecond : free = true → Observes Q' second) :
    SameEnd (pair free first second before) (inOrder first second before) ↔
      ¬(free = true ∧ (∃ cause, (first before).1 = .failed cause) ∧
        (second (first before).2).1 = .overflowed) := by
  cases free with
  | false =>
      simp only [Bool.false_eq_true, false_and, not_false_eq_true, iff_true]
      exact .refl _
  | true =>
      simp only [true_and]
      exact both_sameEnd_inOrder_iff (hfirst rfl) (hsecond rfl)

/-- Two operands that only read have the same values in either order, and record the
same. -/
theorem both_comm (hfirst : Observes Q first) (hsecond : Observes Q' second) {after : State}
    {value : α} {value' : β} :
    Effect.both second first before = (.done (value', value), after) ↔
      Effect.both first second before = (.done (value, value'), after) := by
  obtain ⟨outcome, events, _, hrun⟩ := hfirst before
  obtain ⟨outcome', events', _, hrun'⟩ := hsecond before
  rw [Effect.both_eq_done_iff (hrun before (.refl before)) (hrun' _ (.noteAll before events)),
    Effect.both_eq_done_iff (hrun' before (.refl before)) (hrun _ (.noteAll before events')),
    and_comm (a := outcome' = .done value'), ← State.noteAll_append, ← State.noteAll_append,
    State.noteAll_comm]

end Eval

/-! ## Lists of operands -/

/-- Evaluates expressions strictly from left to right. -/
def Expr.evalInOrder (calls : Calls) : List Expr → Eval (List Value)
  | [] => return []
  | first :: rest => do
      let value ← first.eval calls
      let values ← Expr.evalInOrder calls rest
      return value :: values

/-- An operand fails, and one that strictly would not be reached after it
overflows: no operand from the failing one on makes calls, so all are evaluated. -/
def Expr.Overtaken (calls : Calls) (exprs : List Expr) (before : State) : Prop :=
  ∃ front failing rest values between, exprs = front ++ failing :: rest ∧
    Expr.allCallFree (failing :: rest) = true ∧
    Expr.evalInOrder calls front before = (.done values, between) ∧
    (∃ cause, (failing.eval calls between).1 = .failed cause) ∧
    ∃ later ∈ rest, (later.eval calls between).1 = .overflowed

namespace Expr

variable {calls : Calls} {first failing : Expr} {front rest exprs : List Expr}
variable {before between : State}

theorem evalAll_cons (calls : Calls) (first : Expr) (rest : List Expr) :
    evalAll calls (first :: rest) =
      pair (first.callFree && allCallFree rest) (first.eval calls) (evalAll calls rest) >>=
        fun values => pure (values.1 :: values.2) := rfl

theorem evalInOrder_cons (calls : Calls) (first : Expr) (rest : List Expr) :
    evalInOrder calls (first :: rest) =
      inOrder (first.eval calls) (evalInOrder calls rest) >>=
        fun values => pure (values.1 :: values.2) := by
  simp only [evalInOrder, inOrder, Effect.bind_assoc, Effect.pure_bind]

theorem callFree_of_mem (hfree : allCallFree exprs = true) {expr : Expr} (hmem : expr ∈ exprs) :
    expr.callFree = true := by
  induction exprs with
  | nil => nomatch hmem
  | cons first rest ih =>
      obtain ⟨hfirst, hrest⟩ := Bool.and_eq_true_iff.mp hfree
      rcases List.mem_cons.mp hmem with rfl | hlater
      · exact hfirst
      · exact ih hrest hlater

/-- A list without calls overflows exactly if one of its operands does. -/
theorem evalAll_overflowed_iff (hfree : allCallFree rest = true) :
    (evalAll calls rest before).1 = .overflowed ↔
      ∃ later ∈ rest, (later.eval calls before).1 = .overflowed := by
  induction rest generalizing before with
  | nil => exact ⟨nofun, nofun⟩
  | cons first rest ih =>
      obtain ⟨hfirst, hrest⟩ := Bool.and_eq_true_iff.mp hfree
      obtain ⟨outcome, events, hanswers, hrun⟩ := Expr.observes calls hfirst before
      obtain ⟨outcome', events', hanswers', hrun'⟩ := Expr.observes_evalAll calls hrest before
      have hleft := hrun before (.refl before)
      have hright := hrun' _ (.noteAll before events)
      have hlater : (evalAll calls rest before).1 = .overflowed ↔ _ := ih hrest
      rw [hrun' before (.refl before)] at hlater
      rw [evalAll_cons, Effect.map_eq_overflowed_iff, hfirst, hrest, Bool.and_self, pair,
        if_pos rfl, List.exists_mem_cons_iff, ← hlater, hleft]
      cases outcome with
      | overflowed =>
          rw [Effect.both_of_overflowed (by rw [hleft])]
          simp
      | done | failed =>
          rw [Effect.both_of_runs hleft hright (by simp)]
          cases outcome' <;> simp [Outcome.both]
      | thrown | exhausted => exact hanswers.elim

/-- The front has values in either way. -/
theorem evalAll_of_overtaken {values : List Value}
    (hfront : evalInOrder calls front before = (.done values, between))
    (hrest : (evalAll calls rest between).1 = .overflowed) :
    (evalAll calls (front ++ rest) before).1 = .overflowed := by
  induction front generalizing before values with
  | nil =>
      cases hfront
      exact hrest
  | cons first front ih =>
      obtain ⟨value, reached, hfirst, hfront⟩ := Effect.of_bind_done hfront
      obtain ⟨others, _, hfront, hpair⟩ := Effect.of_bind_done hfront
      cases hpair
      rw [List.cons_append, evalAll_cons, Effect.map_eq_overflowed_iff, pair_of_done hfirst,
        inOrder, Effect.bind_of_done hfirst, Effect.map_eq_overflowed_iff]
      exact ih hfront

theorem evalInOrder_of_failed {values : List Value} {cause : Fault}
    (hfront : evalInOrder calls front before = (.done values, between))
    (hfailing : (failing.eval calls between).1 = .failed cause) :
    (evalInOrder calls (front ++ failing :: rest) before).1 = .failed cause := by
  induction front generalizing before values with
  | nil =>
      cases hfront
      exact Effect.bind_of_failed hfailing
  | cons first front ih =>
      obtain ⟨value, reached, hfirst, hfront⟩ := Effect.of_bind_done hfront
      obtain ⟨others, _, hfront, hpair⟩ := Effect.of_bind_done hfront
      cases hpair
      rw [List.cons_append, evalInOrder, Effect.bind_of_done hfirst]
      exact Effect.bind_of_failed (ih hfront)

/-- A value of the first operand leaves the rest as it is. -/
theorem Overtaken.cons {value : Value} (hfirst : first.eval calls before = (.done value, between))
    (hrest : Overtaken calls rest between) : Overtaken calls (first :: rest) before := by
  obtain ⟨front, failing, after, values, reached, rfl, hfree, hfront, hfails⟩ := hrest
  refine ⟨first :: front, failing, after, value :: values, reached, rfl, hfree, ?_, hfails⟩
  rw [evalInOrder, Effect.bind_of_done hfirst, Effect.bind_of_done hfront]
  rfl

/-- Lists of operands, in which each rest may again be with calls or without. -/
theorem evalAll_sameEnd_evalInOrder_iff (calls : Calls) (exprs : List Expr) (before : State) :
    SameEnd (evalAll calls exprs before) (evalInOrder calls exprs before) ↔
      ¬Overtaken calls exprs before := by
  constructor
  · rintro hend ⟨front, failing, rest, values, between, rfl, hfree, hfront, ⟨cause, hfailing⟩,
      later, hmem, hlater⟩
    have hover := evalAll_of_overtaken hfront
      ((evalAll_overflowed_iff hfree).mpr ⟨later, List.mem_cons_of_mem _ hmem, hlater⟩)
    have hsame := hend.outcome
    rw [hover, evalInOrder_of_failed hfront hfailing] at hsame
    nomatch hsame
  · intro hcalm
    induction exprs generalizing before with
    | nil => exact .refl _
    | cons first rest ih =>
        have hpair : SameEnd
            (pair (first.callFree && allCallFree rest) (first.eval calls) (evalAll calls rest)
              before)
            (inOrder (first.eval calls) (evalAll calls rest) before) := by
          rw [pair_sameEnd_inOrder_iff
            (fun hfree => Expr.observes calls (Bool.and_eq_true_iff.mp hfree).1)
            (fun hfree => Expr.observes_evalAll calls (Bool.and_eq_true_iff.mp hfree).2)]
          rintro ⟨hfree, hfails, hover⟩
          obtain ⟨hfirst, hrest⟩ := Bool.and_eq_true_iff.mp hfree
          obtain ⟨later, hmem, hlater⟩ := (evalAll_overflowed_iff hrest).mp hover
          refine hcalm ⟨[], first, rest, [], before, rfl, hfree, rfl, hfails, later, hmem, ?_⟩
          rw [← (Expr.observes calls (callFree_of_mem hrest hmem)).outcome_eq
            ((Expr.observes calls hfirst).quiet before)]
          exact hlater
        have hrest : SameEnd (inOrder (first.eval calls) (evalAll calls rest) before)
            (inOrder (first.eval calls) (evalInOrder calls rest) before) :=
          .bind (.refl _) fun value between hfirst =>
            .bind (ih between fun hrest => hcalm (hrest.cons hfirst)) fun _ _ _ => .refl _
        rw [evalAll_cons, evalInOrder_cons]
        exact (hpair.trans hrest).bind fun _ _ _ => .refl _

theorem overtaken_pair_iff {second : Expr} : Overtaken calls [first, second] before ↔
    (first.callFree && second.callFree) = true ∧
      (∃ cause, (first.eval calls before).1 = .failed cause) ∧
      (second.eval calls (first.eval calls before).2).1 = .overflowed := by
  constructor
  · rintro ⟨front, failing, rest, values, between, hexprs, hfree, hfront, hfails, later, hmem,
      hlater⟩
    match front, hexprs with
    | [], hexprs =>
        cases hexprs
        cases hfront
        obtain ⟨hfirst, hsecond⟩ := Bool.and_eq_true_iff.mp hfree
        obtain rfl := List.mem_singleton.mp hmem
        have hlast : later.callFree = true := callFree_of_mem hsecond hmem
        rw [hfirst, hlast, (observes calls hlast).outcome_eq ((observes calls hfirst).quiet before)]
        exact ⟨rfl, hfails, hlater⟩
    | [_], hexprs =>
        cases hexprs
        nomatch hmem
    | _ :: _ :: _, hexprs => simp at hexprs
  · rintro ⟨hfree, hfails, hover⟩
    obtain ⟨hfirst, hsecond⟩ := Bool.and_eq_true_iff.mp hfree
    rw [(observes calls hsecond).outcome_eq ((observes calls hfirst).quiet before)] at hover
    refine ⟨[], first, [second], [], before, rfl, ?_, rfl, hfails, second,
      List.mem_singleton_self _, hover⟩
    rw [allCallFree, allCallFree, allCallFree, hfirst, hsecond]
    rfl

/-- Whether operands make calls or not, it comes to the same to evaluate them one
after the other up to the first that throws or fails, except that more accesses may
be recorded before a fault, if and only if none of them overflows that strictly
would not be reached.  An expression without calls does nothing but record accesses
and does not throw, so two of them may change places. -/
theorem operands_inOrder_iff (calls : Calls) :
    (∀ expr : Expr, expr.callFree = true → ∀ before : State,
      before.Quiet (expr.eval calls before).2 ∧
        ∀ exc, (expr.eval calls before).1 ≠ .thrown exc) ∧
    (∀ (first second : Expr) (before : State),
      SameEnd
        (pair (first.callFree && second.callFree) (first.eval calls) (second.eval calls) before)
        (inOrder (first.eval calls) (second.eval calls) before) ↔
          ¬Overtaken calls [first, second] before) ∧
    (∀ (exprs : List Expr) (before : State),
      SameEnd (evalAll calls exprs before) (evalInOrder calls exprs before) ↔
        ¬Overtaken calls exprs before) ∧
    ∀ first second : Expr, first.callFree = true → second.callFree = true →
      ∀ (before after : State) (left right : Value),
        inOrder (second.eval calls) (first.eval calls) before = (.done (right, left), after) ↔
          pair (first.callFree && second.callFree) (first.eval calls) (second.eval calls) before =
            (.done (left, right), after) := by
  refine ⟨?_, ?_, evalAll_sameEnd_evalInOrder_iff calls, ?_⟩
  · intro expr hfree before
    have hobserves := observes calls hfree
    refine ⟨hobserves.quiet before, fun exc hthrown => ?_⟩
    obtain ⟨outcome, events, hanswers, hrun⟩ := hobserves before
    rw [hrun before (.refl before)] at hthrown
    obtain rfl : outcome = .thrown exc := hthrown
    exact hanswers
  · intro first second before
    rw [overtaken_pair_iff]
    exact pair_sameEnd_inOrder_iff
      (fun hfree => observes calls (Bool.and_eq_true_iff.mp hfree).1)
      (fun hfree => observes calls (Bool.and_eq_true_iff.mp hfree).2)
  · intro first second hfirst hsecond before after left right
    have hleft := observes calls hfirst
    have hright := observes calls hsecond
    rw [hfirst, hsecond, Bool.and_self, pair, if_pos rfl, ← both_comm hleft hright]
    exact inOrder_eq_done_iff

def divided : Expr := .binary .div (.literal (.int 1)) (.literal (.int 0))

/-- Two slices with one bit more together than a size counts. -/
def tooWide : Expr :=
  .slice (.literal (.int 5)) [.length (.literal (.int 0)) (.literal (.int (pow2 64 - 1))),
    .length (.literal (.int 0)) (.literal (.int 1))]

end Expr

/-- The meaning of calls where no subprogram may be entered. -/
def Calls.none : Calls := fun _ _ _ => Effect.exhaust

/-- Strictly the first operand fails and ends the evaluation, but the second one is
evaluated too, and overflows. -/
theorem Expr.not_operands_inOrder :
    (Expr.evalAll .none [.divided, .tooWide] (.start false)).1 = .overflowed ∧
      (Expr.evalInOrder .none [.divided, .tooWide] (.start false)).1 =
        .failed .divisionByZero ∧
      ¬SameEnd (Expr.evalAll .none [.divided, .tooWide] (.start false))
        (Expr.evalInOrder .none [.divided, .tooWide] (.start false)) := by
  have hall : (Expr.evalAll .none [.divided, .tooWide] (.start false)).1 = .overflowed := rfl
  have horder : (Expr.evalInOrder .none [.divided, .tooWide] (.start false)).1 =
      .failed .divisionByZero := rfl
  refine ⟨hall, horder, fun hend => ?_⟩
  have hsame := hend.outcome
  rw [hall, horder] at hsame
  nomatch hsame

/-- A state that records accesses and has one global variable. -/
def State.holding : State := (State.start true).onStorage (·.declareGlobal "x" (.int 6))

def Expr.halved : Expr := .binary .div (.var "x") (.literal (.int 2))

def Expr.negated : Expr := .unary .neg (.var "x")

theorem operands_halved_negated :
    Expr.halved.callFree = true ∧ Expr.negated.callFree = true ∧
      ∃ after,
        inOrder (Expr.negated.eval .none) (Expr.halved.eval .none) .holding =
          (.done (.int (-6), .int 3), after) ∧
        pair (Expr.halved.callFree && Expr.negated.callFree) (Expr.halved.eval .none)
          (Expr.negated.eval .none) .holding = (.done (.int 3, .int (-6)), after) ∧
        State.holding.Quiet (Expr.halved.eval .none .holding).2 := by
  obtain ⟨hobserves, _, _, hswapped⟩ := Expr.operands_inOrder_iff .none
  refine ⟨rfl, rfl, _, rfl, ?_, (hobserves .halved rfl .holding).1⟩
  exact (hswapped .halved .negated rfl rfl .holding _ _ _).mp rfl

/-- The second operand is read although the first one fails, unless they are
evaluated in order. -/
example :
    (Expr.evalAll .none [.binary .div (.literal (.int 1)) (.literal (.int 0)), .var "x"]
        .holding).2.recorder = .on [⟨.read, "x", .global false⟩] ∧
    (Expr.evalInOrder .none [.binary .div (.literal (.int 1)) (.literal (.int 0)), .var "x"]
        .holding).2.recorder = .on [] := by
  constructor <;> rfl

end ArchSpec
