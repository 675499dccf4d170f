import ArchSpec.Eval.State

/-!
# Laws of effects

What sequences, blocks and handlers of effects come to when their parts end in
one way or another.
-/

namespace ArchSpec

variable {σ α β γ : Type}

/-- A sequence of results that need no state succeeds if all of them do. -/
theorem bind_eq_ok_iff {first : Except Fault α} {next : α → Except Fault β} {value : β} :
    (first >>= next) = .ok value ↔ ∃ middle, first = .ok middle ∧ next middle = .ok value := by
  cases first with
  | error cause =>
      constructor
      · exact nofun
      · rintro ⟨_, hfirst, _⟩
        nomatch hfirst
  | ok middle =>
      constructor
      · intro hnext
        exact ⟨middle, rfl, hnext⟩
      · rintro ⟨_, hfirst, hnext⟩
        cases hfirst
        exact hnext

theorem toOption_eq_some_iff {result : Except Fault α} {value : α} :
    result.toOption = some value ↔ result = .ok value := by
  cases result <;> simp [Except.toOption]

namespace Outcome

variable {left : Outcome α} {right : Outcome β}

/-- A value or an exception, as opposed to a fault that ends the run. -/
def Nonfatal : Outcome α → Prop
  | .done _ | .thrown _ => True
  | .failed _ | .overflowed | .exhausted => False

instance (outcome : Outcome α) : Decidable outcome.Nonfatal :=
  match outcome with
  | .done _ | .thrown _ => .isTrue trivial
  | .failed _ | .overflowed | .exhausted => .isFalse id

/-- An end that the program goes on from or reports, as opposed to one that cuts
it off. -/
def Returns : Outcome α → Prop
  | .done _ | .thrown _ | .failed _ => True
  | .overflowed | .exhausted => False

theorem nonfatal_of_both (hboth : (left.both right).Nonfatal) :
    left.Nonfatal ∧ right.Nonfatal := by
  cases left <;> cases right <;> first | exact hboth.elim | exact ⟨trivial, trivial⟩

theorem eq_done_of_both {values : α × β} (hboth : left.both right = .done values) :
    left = .done values.1 ∧ right = .done values.2 := by
  cases left <;> cases right <;> simp only [both, reduceCtorEq, done.injEq] at hboth
  subst hboth
  exact ⟨rfl, rfl⟩

theorem thrown_of_both {exc : Value} (hboth : left.both right = .thrown exc) :
    left = .thrown exc ∨ right = .thrown exc := by
  cases left <;> cases right <;> simp only [both, reduceCtorEq, thrown.injEq] at hboth
  all_goals subst hboth
  · exact .inr rfl
  · exact .inl rfl
  · exact .inl rfl

end Outcome

namespace Effect

theorem bind_pure (body : Effect σ α) : (body >>= pure) = body := by
  funext state
  change Effect.bind body Effect.ret state = body state
  rw [Effect.bind]
  rcases body state with ⟨outcome, after⟩
  cases outcome <;> rfl

theorem pure_bind (value : α) (next : α → Effect σ β) : (pure value >>= next) = next value := rfl

theorem bind_assoc (first : Effect σ α) (next : α → Effect σ β) (last : β → Effect σ γ) :
    (first >>= next >>= last) = (first >>= fun value => next value >>= last) := by
  funext state
  change Effect.bind (Effect.bind first next) last state =
    Effect.bind first (fun value => Effect.bind (next value) last) state
  simp only [Effect.bind]
  rcases first state with ⟨outcome, between⟩
  cases outcome <;> rfl

theorem bind_of_done {first : Effect σ α} {next : α → Effect σ β} {value : α} {before after : σ}
    (hfirst : first before = (.done value, after)) :
    (first >>= next) before = next value after := by
  change bind first next before = _
  rw [bind, hfirst]

/-- An overflow on the left ends both computations. -/
theorem both_of_overflowed {left : Effect σ α} {before : σ}
    (hleft : (left before).1 = .overflowed) (right : Effect σ β) :
    both left right before = (.overflowed, (left before).2) := by
  rw [both]
  generalize left before = run at hleft ⊢
  obtain ⟨outcome, after⟩ := run
  obtain rfl : outcome = .overflowed := hleft
  rfl

/-- Without one, both computations run. -/
theorem both_of_not_overflowed {left : Effect σ α} {before : σ}
    (hleft : (left before).1 ≠ .overflowed) (right : Effect σ β) :
    both left right before =
      ((left before).1.both (right (left before).2).1, (right (left before).2).2) := by
  rw [both]
  generalize left before = run at hleft ⊢
  obtain ⟨outcome, between⟩ := run
  cases outcome with
  | overflowed => exact absurd rfl hleft
  | done | thrown | failed | exhausted => rfl

theorem handling_of_done {body : Effect σ α} {handler : Value → Effect σ α} {value : α}
    {before after : σ} (hbody : body before = (.done value, after)) :
    handling body handler before = (.done value, after) := by
  rw [handling, hbody]

/-- A sequence ends with a value if both its parts do. -/
theorem bind_eq_done_iff {first : Effect σ α} {next : α → Effect σ β} {value : β} {before : σ} :
    ((first >>= next) before).1 = .done value ↔
      ∃ middle, (first before).1 = .done middle ∧
        (next middle (first before).2).1 = .done value := by
  change (bind first next before).1 = _ ↔ _
  rw [bind]
  rcases first before with ⟨outcome, between⟩
  cases outcome with
  | done middle => simp
  | thrown | failed | overflowed | exhausted => simp

/-- A fault skips the rest. -/
theorem bind_of_failed {first : Effect σ α} {next : α → Effect σ β} {cause : Fault} {before : σ}
    (hfirst : (first before).1 = .failed cause) : ((first >>= next) before).1 = .failed cause := by
  change (bind first next before).1 = _
  rw [bind]
  rcases hrun : first before with ⟨outcome, after⟩
  obtain rfl : outcome = .failed cause := by
    rw [← hfirst, hrun]
  rfl

theorem of_bind_done {first : Effect σ α} {next : α → Effect σ β} {value : β} {before after : σ}
    (hrun : (first >>= next) before = (.done value, after)) :
    ∃ middle between, first before = (.done middle, between) ∧
      next middle between = (.done value, after) := by
  obtain ⟨middle, hfirst, _⟩ := bind_eq_done_iff.mp (congrArg Prod.fst hrun)
  have hbefore : first before = (.done middle, (first before).2) := Prod.ext hfirst rfl
  rw [bind_of_done hbefore] at hrun
  exact ⟨middle, _, hbefore, hrun⟩

/-- A sequence throws if its first part does, or the rest after a value. -/
theorem of_bind_thrown {first : Effect σ α} {next : α → Effect σ β} {exc : Value}
    {before after : σ} (hrun : (first >>= next) before = (.thrown exc, after)) :
    first before = (.thrown exc, after) ∨
      ∃ value between, first before = (.done value, between) ∧
        next value between = (.thrown exc, after) := by
  change bind first next before = _ at hrun
  rw [bind] at hrun
  rcases hfirst : first before with ⟨outcome, between⟩
  rw [hfirst] at hrun
  cases outcome with
  | done value => exact .inr ⟨value, between, rfl, hrun⟩
  | thrown other =>
      obtain ⟨hexc, rfl⟩ := Prod.mk.inj hrun
      cases hexc
      exact .inl rfl
  | failed | overflowed | exhausted => nomatch hrun

theorem select_bind (test : Value) (yes no : Effect σ α) (next : α → Effect σ β) :
    (select test yes no >>= next) = select test (yes >>= next) (no >>= next) := by
  rw [select, select, bind_assoc]
  congr 1
  funext outcome
  cases outcome <;> rfl

theorem lift_eq_done_iff {result : Except Fault α} {value : α} {before : σ} :
    (lift result before).1 = .done value ↔ result = .ok value := by
  cases result <;> simp [lift]

theorem liftSized_eq_done_iff {result : Except Fault (Option α)} {value : α} {before : σ} :
    (liftSized result before).1 = .done value ↔ result.toOption.join = some value := by
  cases result with
  | error cause => simp [liftSized, bind, lift, Except.toOption]
  | ok found => cases found <;> simp [liftSized, bind, lift, ret, overflow, Except.toOption]

/-- One more round is the step and then either the next round or the end. -/
theorem iterate_succ (step : α → Effect σ (α ⊕ β)) (rounds : Nat) (current : α) :
    iterate step (rounds + 1) current =
      step current >>= Sum.elim (iterate step rounds) pure := by
  funext state
  change _ = Effect.bind (step current) (Sum.elim (iterate step rounds) Effect.ret) state
  simp only [iterate, Effect.bind]
  rcases step current state with ⟨outcome, after⟩
  cases outcome with
  | done next => cases next <;> rfl
  | thrown | failed | overflowed | exhausted => rfl

section Within

variable {enter leave : σ → σ} {body : Effect σ α} {outcome : Outcome α} {before after : σ}

/-- What was entered is left after a value or an exception. -/
theorem of_within_nonfatal (hrun : within enter leave body before = (outcome, after))
    (hnonfatal : outcome.Nonfatal) :
    ∃ state, body (enter before) = (outcome, state) ∧ after = leave state := by
  rw [within] at hrun
  rcases hbody : body (enter before) with ⟨ended, state⟩
  rw [hbody] at hrun
  cases ended with
  | done | thrown =>
      obtain ⟨rfl, rfl⟩ := Prod.mk.inj hrun
      exact ⟨state, rfl, rfl⟩
  | failed | overflowed | exhausted =>
      obtain ⟨rfl, _⟩ := Prod.mk.inj hrun
      exact hnonfatal.elim

/-- What was entered is not left after a fault. -/
theorem of_within_failed {cause : Fault}
    (hrun : within enter leave body before = (.failed cause, after)) :
    body (enter before) = (.failed cause, after) := by
  rw [within] at hrun
  rcases hbody : body (enter before) with ⟨ended, state⟩
  rw [hbody] at hrun
  cases ended with
  | done | thrown | overflowed | exhausted => cases hrun
  | failed other => exact hrun

end Within

/-- A computation ended where a part of it had come to. -/
structure EndsAt (reached : Outcome α × σ) (ended : Outcome β × σ) : Prop where
  state : ended.2 = reached.2
  returns : ended.1.Returns → reached.1.Returns

theorem EndsAt.trans {reached : Outcome α × σ} {between : Outcome β × σ}
    {ended : Outcome γ × σ} (hfirst : EndsAt reached between) (hsecond : EndsAt between ended) :
    EndsAt reached ended where
  state := hsecond.state.trans hfirst.state
  returns hends := hfirst.returns (hsecond.returns hends)

/-- Without a value the rest is skipped. -/
theorem bind_endsAt {first : Effect σ α} (next : α → Effect σ β) {before : σ}
    (hfirst : ∀ value, (first before).1 ≠ .done value) :
    EndsAt (first before) ((first >>= next) before) := by
  change EndsAt (first before) (bind first next before)
  rw [bind]
  rcases hrun : first before with ⟨outcome, state⟩
  rw [hrun] at hfirst
  cases outcome with
  | done value => exact (hfirst value rfl).elim
  | thrown | failed | overflowed | exhausted => exact ⟨rfl, id⟩

/-- To report an exception changes nothing. -/
theorem handling_endsAt (body : Effect σ α) (report : Value → Fault) (before : σ) :
    EndsAt (body before) (handling body (fun exc => fault (report exc)) before) := by
  rw [handling]
  rcases body before with ⟨outcome, state⟩
  cases outcome with
  | thrown exc => exact ⟨rfl, fun _ => trivial⟩
  | done | failed | overflowed | exhausted => exact ⟨rfl, id⟩

/-- To report an exception is no way to end with a value. -/
theorem eq_done_of_handling {body : Effect σ α} (report : Value → Fault) {before : σ} {value : α}
    (hrun : (handling body (fun exc => fault (report exc)) before).1 = .done value) :
    (body before).1 = .done value := by
  rw [handling] at hrun
  rcases hbody : body before with ⟨outcome, state⟩
  rw [hbody] at hrun
  cases outcome with
  | thrown exc => nomatch hrun
  | done | failed | overflowed | exhausted => exact hrun

end Effect

namespace Eval

variable {subprogram : String} {before : State}

/-- To look for a number changes nothing. -/
theorem snd_countActivation (subprogram : String) (before : State) :
    (countActivation subprogram before).2 = before := by
  rw [countActivation]
  split <;> rfl

/-- Without a number nothing happens at all. -/
theorem inActivation_of_full (hfull : before.storage.Full subprogram) (body : Eval α) :
    inActivation subprogram body before = (.overflowed, before) := by
  change Effect.bind (countActivation subprogram) _ before = _
  rw [Effect.bind, countActivation, if_pos hfull]

theorem inActivation_of_not_full (hroom : ¬before.storage.Full subprogram) (body : Eval α) :
    inActivation subprogram body before =
      Effect.within (State.onStorage (·.pushFrame subprogram)) (State.onStorage Storage.popFrame)
        body before :=
  Effect.bind_of_done (by rw [countActivation, if_neg hroom])

end Eval

end ArchSpec
