import ArchSpec.Proofs.Moments
import ArchSpec.Proofs.StackDiscipline

/-!
# Invariants of all moments

What is asked of the states, the values and the exceptions of a run holds at all
its moments, also if the run fails later, as soon as each single step keeps it.
More may be asked of states while globals are initialised and inside activations,
where the steps may rely on it.
-/

namespace ArchSpec

open Eval Moments

/-- What is asked of the values, the exceptions and the states of a run. -/
structure Invariant where
  ofValue : Value → Prop
  /-- Of exceptions on their way to a handler, and while they are handled. -/
  ofException : Value → Prop
  ofState : State → Prop

namespace Invariant

variable (I : Invariant) {α β : Type}

def Holds : Moment → Prop
  | .passing state => I.ofState state
  | .produced value state => I.ofValue value ∧ I.ofState state
  | .propagating exc state => I.ofException exc ∧ I.ofState state

/-- The same with something else asked of states. -/
abbrev inState (inside : State → Prop) : Invariant := { I with ofState := inside }

/-- Every step of a statement from a state that is as asked leads to one. -/
structure Lawful : Prop extends ValueLaws I.ofValue I.ofException where
  lookup : ∀ {state : State} {name : String} {value : Value} {scope : Scope}, I.ofState state →
    state.storage.lookup name = some (value, scope) →
    I.ofValue value ∧ I.ofState (state.note .read name scope)
  assign : ∀ {state : State} {name : String} {value : Value} {storage : Storage Value}
    {scope : Scope}, I.ofState state → I.ofValue value →
    state.storage.assign name value = some (storage, scope) →
    I.ofState ({ state with storage }.note .write name scope)
  declare : ∀ {state : State} {name : String} {value : Value}, I.ofState state →
    I.ofValue value →
    I.ofState ((state.note .write name state.storage.currentScope).onStorage (·.declare name value))
  pushBlock : ∀ {state : State}, I.ofState state → I.ofState (state.onStorage Storage.pushBlock)
  popBlock : ∀ {state : State}, I.ofState state → I.ofState (state.onStorage Storage.popBlock)
  pushHandled : ∀ {state : State} {exc : Value}, I.ofState state → I.ofException exc →
    I.ofState (state.pushHandled exc)
  popHandled : ∀ {state : State}, I.ofState state → I.ofState state.popHandled
  handled : ∀ {state : State} {exc : Value}, I.ofState state → exc ∈ state.handled →
    I.ofException exc
  warn : ∀ {state : State} {message : String}, I.ofState state → I.ofState (state.warn message)

/-- Calls from states as asked lead to states inside an activation, and back. -/
structure Opens (inside : State → Prop) : Prop where
  enter : ∀ {before : State} {name : String}, I.ofState before →
    inside (before.onStorage (·.pushFrame name))
  leave : ∀ {before after : State} {name : String}, I.ofState before → inside after →
    (before.onStorage (·.pushFrame name)).SameStack after →
    I.ofState (after.onStorage Storage.popFrame)
  outside : ∀ {state : State}, inside state → I.ofState state
  print : ∀ {state : State} {text : String}, I.ofState state → I.ofState (state.print text)

/-- Calls from states as asked run bodies inside activations, which may call
further ones. -/
structure Carries (inside : State → Prop) : Prop where
  lawful : (I.inState inside).Lawful
  opens : I.Opens inside
  nested : (I.inState inside).Opens inside

/-- Globals are initialised in states of their own. -/
structure Initialises (initial : State → Prop) : Prop where
  lawful : (I.inState initial).Lawful
  start : ∀ {state : State}, I.ofState state →
    initial (state.onStorage (·.setInitialising true))
  declareGlobal : ∀ {state : State} {name : String} {value : Value}, initial state →
    I.ofValue value →
    initial ((state.onStorage (·.declareGlobal name value)).note .write name
      state.storage.globalScope)
  stop : ∀ {state : State}, initial state →
    I.ofState (state.onStorage (·.setInitialising false))
  outside : ∀ {state : State}, initial state → I.ofState state

/-- Every step of a run keeps what is asked of states: anywhere, while globals
are initialised, and inside activations then and later. -/
structure Staged (initial initialInside inside : State → Prop) : Prop where
  initialises : I.Initialises initial
  initialCalls : (I.inState initial).Carries initialInside
  calls : I.Carries inside

/-- A computation ends in a state as asked, with a value that satisfies `Q` or
with an exception as asked. -/
structure Ends (Q : α → Prop) (run : Outcome α × State) : Prop where
  state : I.ofState run.2
  value : ∀ value, run.1 = .done value → Q value
  exception : ∀ exc, run.1 = .thrown exc → I.ofException exc

/-- From states as asked, a computation ends in one. -/
def Keeps (Q : α → Prop) (body : Eval α) : Prop :=
  ∀ before, I.ofState before → I.Ends Q (body before)

/-- From states as asked, all moments of a computation are as asked too. -/
def Sound (Q : α → Prop) (body : Eval α) (during : Moments) : Prop :=
  ∀ before, I.ofState before →
    (∀ moment, during before moment → I.Holds moment) ∧ I.Ends Q (body before)

variable {I} {Q : α → Prop} {Q' : β → Prop} {body : Eval α} {during during' : Moments}

/-- Moments inside are as asked outside. -/
theorem Holds.outside {inside : State → Prop} {moment : Moment}
    (hholds : (I.inState inside).Holds moment)
    (houtside : ∀ state, inside state → I.ofState state) : I.Holds moment := by
  cases moment with
  | passing state => exact houtside state hholds
  | produced value state | propagating exc state => exact ⟨hholds.1, houtside state hholds.2⟩

/-- Inside an activation further ones are opened in the same way. -/
theorem Carries.inside {inside : State → Prop} (hI : I.Carries inside) :
    (I.inState inside).Carries inside :=
  ⟨hI.lawful, hI.nested, hI.nested⟩

/-! ## Single steps -/

namespace Keeps

theorem of_outcome {outcome : Outcome α} (hvalue : ∀ value, outcome = .done value → Q value)
    (hexc : ∀ exc, outcome = .thrown exc → I.ofException exc) :
    I.Keeps Q (fun state => (outcome, state)) :=
  fun _ hbefore => ⟨hbefore, hvalue, hexc⟩

theorem ret {value : α} (hvalue : Q value) : I.Keeps Q (pure value : Eval α) :=
  of_outcome (fun _ houtcome => by cases houtcome; exact hvalue) nofun

theorem fault {cause : Fault} : I.Keeps Q (Effect.fault cause) := of_outcome nofun nofun

theorem overflow : I.Keeps Q (Effect.overflow : Eval α) := of_outcome nofun nofun

theorem exhaust : I.Keeps Q (Effect.exhaust : Eval α) := of_outcome nofun nofun

theorem throwing {exc : Value} (hexc : I.ofException exc) : I.Keeps Q (Effect.throwing exc) :=
  of_outcome nofun fun _ houtcome => by cases houtcome; exact hexc

theorem lift {result : Except Fault α} (hresult : ∀ value, result = .ok value → Q value) :
    I.Keeps Q (Effect.lift result) := by
  cases result with
  | ok value => exact ret (hresult value rfl)
  | error cause => exact fault

theorem modify {change : State → State}
    (hchange : ∀ state, I.ofState state → I.ofState (change state)) :
    I.Keeps Anything (Effect.modify change) :=
  fun before hbefore => ⟨hchange before hbefore, fun _ _ => trivial, nofun⟩

theorem countActivation (subprogram : String) :
    I.Keeps Anything (Eval.countActivation subprogram) := by
  intro before hbefore
  rw [Eval.countActivation]
  split <;> exact ⟨hbefore, fun _ _ => trivial, by simp⟩

theorem bind {next : α → Eval β} (hbody : I.Keeps Q body)
    (hnext : ∀ value, Q value → I.Keeps Q' (next value)) : I.Keeps Q' (body >>= next) := by
  intro before hbefore
  have hend := hbody before hbefore
  change I.Ends Q' (Effect.bind body next before)
  rw [Effect.bind]
  rcases hrun : body before with ⟨outcome, between⟩
  rw [hrun] at hend
  cases outcome with
  | done value => exact hnext value (hend.value value rfl) between hend.state
  | thrown exc => exact ⟨hend.state, by simp, fun _ hexc => hend.exception _ (by cases hexc; rfl)⟩
  | failed | overflowed | exhausted => exact ⟨hend.state, by simp, by simp⟩

theorem liftSized {result : Except Fault (Option α)}
    (hresult : ∀ value, result = .ok (some value) → Q value) :
    I.Keeps Q (Effect.liftSized result) := by
  refine (lift (Q := fun found => ∀ value, found = some value → Q value)
    fun found hfound value hvalue => hresult value (hvalue ▸ hfound)).bind fun found hfound => ?_
  cases found with
  | some value => exact ret (hfound value rfl)
  | none => exact overflow

end Keeps

/-! ## Parts of a computation -/

namespace Sound

theorem of_keeps (hbody : I.Keeps Q body) : I.Sound Q body silent :=
  fun before hbefore => ⟨fun _ hmoment => hmoment.elim, hbody before hbefore⟩

theorem weaken {Q'' : α → Prop} (hbody : I.Sound Q body during)
    (himp : ∀ value, Q value → Q'' value) : I.Sound Q'' body during := by
  intro before hbefore
  obtain ⟨hholds, hend⟩ := hbody before hbefore
  exact ⟨hholds, hend.state, fun value hvalue => himp value (hend.value value hvalue),
    hend.exception⟩

theorem bind {next : α → Eval β} {rest : α → Moments} (hbody : I.Sound Q body during)
    (hnext : ∀ value, Q value → I.Sound Q' (next value) (rest value)) :
    I.Sound Q' (body >>= next) (Moments.bind body during rest) := by
  intro before hbefore
  obtain ⟨hholds, hend⟩ := hbody before hbefore
  have hfirst : (∀ value, (body before).1 ≠ .done value) →
      ∀ moment, Moments.bind body during rest before moment → I.Holds moment := by
    rintro hnone moment (hmoment | ⟨value, between, hrun, _⟩)
    · exact hholds moment hmoment
    · exact (hnone value (congrArg Prod.fst hrun)).elim
  change _ ∧ I.Ends Q' (Effect.bind body next before)
  rw [Effect.bind]
  rcases hrun : body before with ⟨outcome, between⟩
  rw [hrun] at hend hfirst
  cases outcome with
  | done value =>
      obtain ⟨hrestHolds, hrestEnd⟩ := hnext value (hend.value value rfl) between hend.state
      refine ⟨?_, hrestEnd⟩
      rintro moment (hmoment | ⟨other, state, hother, hmoment⟩)
      · exact hholds moment hmoment
      · rw [hrun] at hother
        cases hother
        exact hrestHolds moment hmoment
  | thrown exc =>
      exact ⟨hfirst (by simp), hend.state, by simp,
        fun _ hexc => hend.exception _ (by cases hexc; rfl)⟩
  | failed | overflowed | exhausted => exact ⟨hfirst (by simp), hend.state, by simp, by simp⟩

/-- After the last observation, single steps may follow. -/
theorem andThen {next : α → Eval β} (hbody : I.Sound Q body during)
    (hnext : ∀ value, Q value → I.Keeps Q' (next value)) : I.Sound Q' (body >>= next) during := by
  intro before hbefore
  have hall := (hbody.bind fun value hvalue => of_keeps (hnext value hvalue)) before hbefore
  have hsame : ∀ moment, Moments.bind body during (fun _ => silent) before moment ↔
      during before moment := by
    simp [Moments.bind, silent]
  simpa only [hsame] using hall

theorem pair {second : Eval β} {independent : Bool} (hbody : I.Sound Q body during)
    (hsecond : I.Sound Q' second during') :
    I.Sound (fun values => Q values.1 ∧ Q' values.2) (Eval.pair independent body second)
      (Moments.pair independent body during during') := by
  cases independent with
  | false =>
      exact hbody.bind fun _ hleft => hsecond.andThen fun _ hright => .ret ⟨hleft, hright⟩
  | true =>
      intro before hbefore
      obtain ⟨hholds, hend⟩ := hbody before hbefore
      obtain ⟨hholds', hend'⟩ := hsecond (body before).2 hend.state
      refine ⟨fun moment hmoment => hmoment.elim (hholds moment) fun hlater =>
        hholds' moment hlater.2, ?_⟩
      change I.Ends _ (Effect.both body second before)
      by_cases hover : (body before).1 = .overflowed
      · rw [Effect.both_of_overflowed hover]
        exact ⟨hend.state, nofun, nofun⟩
      · rw [Effect.both_of_not_overflowed hover]
        refine ⟨hend'.state, fun values hvalues => ?_, fun exc hexc => ?_⟩
        · obtain ⟨hleft, hright⟩ := Outcome.eq_done_of_both hvalues
          exact ⟨hend.value _ hleft, hend'.value _ hright⟩
        · rcases Outcome.thrown_of_both hexc with hleft | hright
          · exact hend.exception exc hleft
          · exact hend'.exception exc hright

theorem select {test : Value} {next : Bool → Eval α} {yes no : Moments}
    (hyes : I.Sound Q (next true) yes) (hno : I.Sound Q (next false) no) :
    I.Sound Q (Effect.lift test.asBool >>= next) (Moments.select test yes no) := by
  cases htest : test.asBool with
  | error cause =>
      intro before hbefore
      refine ⟨?_, hbefore, nofun, nofun⟩
      rintro moment (⟨htrue, _⟩ | ⟨hfalse, _⟩)
      · rw [htest] at htrue
        nomatch htrue
      · rw [htest] at hfalse
        nomatch hfalse
  | ok outcome =>
      have hsame : Moments.select test yes no = if outcome then yes else no := by
        funext before moment
        cases outcome <;> simp [Moments.select, htest]
      rw [hsame]
      cases outcome with
      | false => exact hno
      | true => exact hyes

/-- What is observed around a computation, if its last moment is as asked. -/
theorem around {last : Outcome α × State → Moment} (hbody : I.Sound Q body during)
    (hlast : ∀ before, I.Ends Q (body before) → I.Holds (last (body before))) :
    I.Sound Q body (Moments.around last body during) := by
  intro before hbefore
  obtain ⟨hholds, hend⟩ := hbody before hbefore
  refine ⟨?_, hend⟩
  rintro moment (rfl | hmoment | rfl)
  · exact hbefore
  · exact hholds moment hmoment
  · exact hlast before hend

theorem around_ending (hbody : I.Sound Q body during) :
    I.Sound Q body (Moments.around ending body during) := by
  apply hbody.around
  intro before hend
  rcases hrun : body before with ⟨outcome, after⟩
  rw [hrun] at hend
  cases outcome with
  | thrown exc => exact ⟨hend.exception exc rfl, hend.state⟩
  | done | failed | overflowed | exhausted => exact hend.state

theorem around_result {body : Eval Value} (hbody : I.Sound I.ofValue body during) :
    I.Sound I.ofValue body (Moments.around result body during) := by
  apply hbody.around
  intro before hend
  rcases hrun : body before with ⟨outcome, after⟩
  rw [hrun] at hend
  cases outcome with
  | done value => exact ⟨hend.value value rfl, hend.state⟩
  | thrown exc => exact ⟨hend.exception exc rfl, hend.state⟩
  | failed | overflowed | exhausted => exact hend.state

theorem stepping {next : α → Eval β} {rest : α → Moments} (hbody : I.Keeps Q body)
    (hnext : ∀ value, Q value → I.Sound Q' (next value) (rest value)) :
    I.Sound Q' (body >>= next) (Moments.stepping body rest) :=
  (of_keeps hbody).around_ending.bind hnext

/-- What is observed in a computation that starts and ends in states inside. -/
theorem entering {inside : State → Prop} {enter leave : State → State}
    (hbody : (I.inState inside).Sound Q body during)
    (henter : ∀ state, I.ofState state → inside (enter state))
    (hleave : ∀ before after outcome, I.ofState before → inside after →
      body (enter before) = (outcome, after) → outcome.Nonfatal → I.ofState (leave after))
    (houtside : ∀ state, inside state → I.ofState state) :
    I.Sound Q (Effect.within enter leave body) (Moments.within enter body during) := by
  intro before hbefore
  obtain ⟨hholds, hend⟩ := hbody.around_ending (enter before) (henter before hbefore)
  refine ⟨fun moment hmoment => (hholds moment hmoment).outside houtside, ?_⟩
  rw [Effect.within]
  rcases hrun : body (enter before) with ⟨outcome, after⟩
  rw [hrun] at hend
  cases outcome with
  | done | thrown =>
      exact ⟨hleave before after _ hbefore hend.state hrun trivial, hend.value, hend.exception⟩
  | failed | overflowed | exhausted => exact ⟨houtside after hend.state, hend.value, hend.exception⟩

theorem within {enter leave : State → State} (hbody : I.Sound Q body during)
    (henter : ∀ state, I.ofState state → I.ofState (enter state))
    (hleave : ∀ state, I.ofState state → I.ofState (leave state)) :
    I.Sound Q (Effect.within enter leave body) (Moments.within enter body during) :=
  entering hbody henter (fun _ after _ _ hafter _ _ => hleave after hafter) fun _ hstate => hstate

theorem handling {handler : Value → Eval α} {rest : Value → Moments} (hbody : I.Sound Q body during)
    (hhandler : ∀ exc, I.ofException exc → I.Sound Q (handler exc) (rest exc)) :
    I.Sound Q (Effect.handling body handler) (Moments.handling body during rest) := by
  intro before hbefore
  obtain ⟨hholds, hend⟩ := hbody before hbefore
  have hfirst : (∀ exc, (body before).1 ≠ .thrown exc) →
      ∀ moment, Moments.handling body during rest before moment → I.Holds moment := by
    rintro hnone moment (hmoment | ⟨exc, between, hrun, _⟩)
    · exact hholds moment hmoment
    · exact (hnone exc (congrArg Prod.fst hrun)).elim
  rw [Effect.handling]
  rcases hrun : body before with ⟨outcome, between⟩
  rw [hrun] at hend hfirst
  cases outcome with
  | thrown exc =>
      obtain ⟨hrestHolds, hrestEnd⟩ := hhandler exc (hend.exception exc rfl) between hend.state
      refine ⟨?_, hrestEnd⟩
      rintro moment (hmoment | ⟨other, state, hother, hmoment⟩)
      · exact hholds moment hmoment
      · rw [hrun] at hother
        cases hother
        exact hrestHolds moment hmoment
  | done | failed | overflowed | exhausted => exact ⟨hfirst (by simp), hend⟩

/-- An exception may be reported after the last observation. -/
theorem reporting {report : Value → Fault} (hbody : I.Sound Q body during) :
    I.Sound Q (Effect.handling body fun exc => Effect.fault (report exc)) during := by
  intro before hbefore
  obtain ⟨hholds, hend⟩ := hbody before hbefore
  refine ⟨hholds, ?_⟩
  rw [Effect.handling]
  rcases hrun : body before with ⟨outcome, after⟩
  rw [hrun] at hend
  cases outcome with
  | thrown exc => exact Keeps.fault after hend.state
  | done | failed | overflowed | exhausted => exact hend

theorem iterate {step : α → Eval (α ⊕ β)} {rest : α → Moments}
    (hstep : ∀ current, Q current → I.Sound (Sum.elim Q Q') (step current) (rest current))
    (rounds : Nat) {current : α} (hcurrent : Q current) :
    I.Sound Q' (Effect.iterate step rounds current) (Moments.iterate step rest rounds current) := by
  induction rounds generalizing current with
  | zero => exact of_keeps .exhaust
  | succ rounds ih =>
      rw [Effect.iterate_succ]
      apply (hstep current hcurrent).bind
      intro outcome houtcome
      cases outcome with
      | inl next => exact ih houtcome
      | inr final => exact of_keeps (.ret houtcome)

end Sound

/-! ## Steps of the evaluator -/

namespace Keeps

variable {name : String} {value exc : Value}

theorem readVariable (hI : I.Lawful) (name : String) :
    I.Keeps I.ofValue (Eval.readVariable name) := by
  intro before hbefore
  rw [Eval.readVariable]
  cases hlookup : before.storage.lookup name with
  | none => exact ⟨hbefore, by simp, by simp⟩
  | some found =>
      obtain ⟨hvalue, hstate⟩ := hI.lookup hbefore hlookup
      exact ⟨hstate, fun _ hsame => by cases hsame; exact hvalue, by simp⟩

theorem writeVariable (hI : I.Lawful) (hvalue : I.ofValue value) :
    I.Keeps Anything (Eval.writeVariable name value) := by
  intro before hbefore
  rw [Eval.writeVariable]
  cases hassign : before.storage.assign name value with
  | none => exact ⟨hbefore, by simp, by simp⟩
  | some result => exact ⟨hI.assign hbefore hvalue hassign, fun _ _ => trivial, by simp⟩

theorem declareLocal (hI : I.Lawful) (hvalue : I.ofValue value) :
    I.Keeps Anything (Eval.declareLocal name value) :=
  modify fun _ hstate => hI.declare hstate hvalue

theorem checkUnroll (hI : I.Lawful) (unroll finished : Nat) :
    I.Keeps Anything (Eval.checkUnroll unroll finished) := by
  rw [Eval.checkUnroll]
  split
  · exact modify fun _ hstate => hI.warn hstate
  · exact ret trivial

theorem bindCaught (hI : I.Lawful) (binding : Option String) (hexc : I.ofException exc) :
    I.Keeps Anything (Eval.bindCaught binding exc) := by
  cases binding with
  | none => exact ret trivial
  | some name => exact declareLocal hI (hI.caught hexc)

theorem assertion {test : Value} {Q : Flow → Prop} (hQ : Q .next) :
    I.Keeps Q (Eval.assertion test) := by
  refine (lift (Q := Anything) fun _ _ => trivial).bind fun outcome _ => ?_
  cases outcome with
  | false => exact fault
  | true => exact ret hQ

theorem raise (hI : I.Lawful) (hexc : I.ofValue exc) : I.Keeps Q (Eval.raise exc) := by
  rw [Eval.raise]
  exact (lift fun _ hname => hI.raised hexc hname).bind fun _ hthrown => throwing hthrown

theorem raiseAgain (hI : I.Lawful) : I.Keeps Q Eval.raiseAgain := by
  intro before hbefore
  rw [Eval.raiseAgain]
  cases hhandled : before.handled with
  | nil => exact ⟨hbefore, by simp, by simp⟩
  | cons exc rest =>
      have hexc : I.ofException exc := by
        apply hI.handled hbefore
        rw [hhandled]
        exact List.mem_cons_self ..
      exact ⟨hbefore, by simp, fun _ hsame => by cases hsame; exact hexc⟩

theorem theResult {callee : String} {results : List Value}
    (hresults : Value.Each I.ofValue results) :
    I.Keeps I.ofValue (Eval.theResult callee results) := by
  match results, hresults with
  | [], _ | _ :: _ :: _, _ => exact fault
  | [value], hvalue => exact ret (hvalue value (List.mem_singleton_self value))

theorem callPrimitive {inside : State → Prop} (hI : I.Carries inside) {values : List Value}
    (hvalues : Value.Each I.ofValue values) :
    I.Keeps (Value.Each I.ofValue) (Eval.callPrimitive name values) := by
  rw [Eval.callPrimitive]
  cases Primitive.ofName? name with
  | none => exact fault
  | some primitive =>
      exact (lift fun _ hreply => hI.lawful.primitive hvalues hreply).bind fun _ hresults =>
        (modify fun _ hstate => hI.opens.print hstate).bind fun _ _ => ret hresults

end Keeps

/-! ## Blocks, handlers and rounds -/

namespace Sound

variable {exc : Value} {unroll finished : Nat} {test : Eval Value} {testing : Moments}
variable {body : Eval Flow}

theorem inBlock (hI : I.Lawful) {body : Eval α} (hbody : I.Sound Q body during) :
    I.Sound Q (Eval.inBlock body) (Moments.inBlock body during) :=
  hbody.within (fun _ hstate => hI.pushBlock hstate) fun _ hstate => hI.popBlock hstate

theorem runHandler (hI : I.Lawful) {Q : Flow → Prop} (hexc : I.ofException exc)
    (binding : Option String) (hbody : I.Sound Q body during) :
    I.Sound Q (Eval.runHandler exc binding body)
      (Moments.runHandler exc binding body during) :=
  (inBlock hI (stepping (.bindCaught hI binding hexc) fun _ _ => hbody)).within
    (fun _ hstate => hI.pushHandled hstate hexc) fun _ hstate => hI.popHandled hstate

theorem countedRound (hI : I.Lawful) {Q : Flow → Prop} (index : String) (current : Int)
    (hbody : I.Sound Q body during) :
    I.Sound Q (Eval.countedRound index current body)
      (Moments.countedRound index current body during) :=
  inBlock hI (stepping (.declareLocal hI (hI.int current)) fun _ _ => hbody)

theorem countedRounds (hI : I.Lawful) {down : Bool} {index : String}
    (hbody : I.Sound (Flow.Returns I.ofValue) body during) (rounds : Nat) (current : Int)
    (finished : Nat) :
    I.Sound (Flow.Returns I.ofValue)
      (Eval.countedRounds unroll down index body rounds current finished)
      (Moments.countedRounds unroll down index body during rounds current finished) := by
  induction rounds generalizing current finished with
  | zero => exact of_keeps (.ret trivial)
  | succ rounds ih =>
      rw [Eval.countedRounds_succ]
      apply (stepping (.checkUnroll hI unroll finished) fun _ _ =>
        countedRound hI index current hbody).bind
      intro flow hflow
      cases flow with
      | next => exact ih _ _
      | returned value => exact of_keeps (.ret hflow)

theorem countedLoop (hI : I.Lawful) {down : Bool} {index : String} {first last : Value}
    (hbody : I.Sound (Flow.Returns I.ofValue) body during) :
    I.Sound (Flow.Returns I.ofValue)
      (Eval.countedLoop unroll down index first last body)
      (Moments.countedLoop unroll down index first last body during) :=
  (of_keeps (.lift (Q := Anything) fun _ _ => trivial)).bind fun _ _ =>
    countedRounds hI hbody _ _ _

theorem testedRound (hI : I.Lawful) (htest : I.Sound I.ofValue test testing)
    (hbody : I.Sound (Flow.Returns I.ofValue) body during) :
    I.Sound (Sum.elim Anything (Flow.Returns I.ofValue))
      (Eval.testedRound unroll test body finished)
      (Moments.testedRound unroll test testing body during finished) := by
  refine htest.bind fun _ _ => .select ?_ (of_keeps (.ret trivial))
  refine stepping (.checkUnroll hI unroll finished) fun _ _ => (inBlock hI hbody).andThen ?_
  intro flow hflow
  cases flow with
  | next => exact .ret trivial
  | returned value => exact .ret hflow

end Sound

/-! ## The same for all stored values -/

/-- All variables have values that satisfy one predicate, and all exceptions
satisfy another one. -/
def stored (V X : Value → Prop) : Invariant where
  ofValue := V
  ofException := X
  ofState state := state.storage.Each V ∧ ∀ exc ∈ state.handled, X exc

section Stored

variable {V X : Value → Prop}

/-- For statements it is enough that operations on values keep the predicates. -/
theorem stored_lawful (hV : ValueLaws V X) : (stored V X).Lawful where
  toValueLaws := hV
  lookup hstate hlookup := ⟨hstate.left.lookup hlookup, hstate⟩
  assign hstate hvalue hassign := ⟨hstate.left.assign hvalue hassign, hstate.right⟩
  declare hstate hvalue := ⟨hstate.left.declare _ hvalue, hstate.right⟩
  pushBlock hstate := ⟨hstate.left.pushBlock, hstate.right⟩
  popBlock hstate := ⟨hstate.left.popBlock, hstate.right⟩
  pushHandled hstate hexc := ⟨hstate.left, List.forall_mem_cons.mpr ⟨hexc, hstate.right⟩⟩
  popHandled hstate :=
    ⟨hstate.left, fun exc hexc => hstate.right exc (List.mem_of_mem_tail hexc)⟩
  handled hstate hexc := hstate.right _ hexc
  warn hstate := hstate

theorem stored_opens : (stored V X).Opens (stored V X).ofState where
  enter hstate := ⟨hstate.left.pushFrame _, hstate.right⟩
  leave _ hstate _ := ⟨hstate.left.popFrame, hstate.right⟩
  outside hstate := hstate
  print hstate := hstate

/-- Nothing more has to be asked in any part of a run. -/
theorem Lawful.staged (hI : (stored V X).Lawful) :
    (stored V X).Staged (stored V X).ofState (stored V X).ofState
      (stored V X).ofState where
  initialises :=
    { lawful := hI
      start := fun hstate => ⟨⟨hstate.left.globals, hstate.left.frames⟩, hstate.right⟩
      declareGlobal := fun hstate hvalue =>
        ⟨hstate.left.declareGlobal _ hvalue, hstate.right⟩
      stop := fun hstate => ⟨⟨hstate.left.globals, hstate.left.frames⟩, hstate.right⟩
      outside := fun hstate => hstate }
  initialCalls := ⟨hI, stored_opens, stored_opens⟩
  calls := ⟨hI, stored_opens, stored_opens⟩

end Stored

end Invariant

end ArchSpec
