import ArchSpec.Proofs.Slicing
import ArchSpec.Proofs.Storage.Each
import ArchSpec.Run.Outcome

/-!
# Relations that the evaluator respects

A property of all runs, or a relation between two runs, follows for every
program once it is kept by the few steps from which the evaluator is built.
This file lists those steps as closure conditions, in groups: expressions need
less than statements, and statements less than calls.  A relation carries a
predicate for the values with which both computations end, so that facts about
values travel from one step to the next.
-/

namespace ArchSpec

/-- What relates two computations, given a predicate for the values with which
they end. -/
abbrev EvalRel := (α : Type) → (α → Prop) → Eval α → Eval α → Prop

/-- A property of single computations, as a relation that looks at one side. -/
def EvalRel.single (P : (α : Type) → (α → Prop) → Eval α → Prop) : EvalRel :=
  fun α Q body _ => P α Q body

/-- Nothing is known about a value. -/
abbrev Anything {α : Type} : α → Prop := fun _ => True

/-- Every value of a list satisfies a predicate. -/
def Value.Each (V : Value → Prop) (values : List Value) : Prop :=
  ∀ value ∈ values, V value

/-- A returned value satisfies a predicate. -/
def Flow.Returns (V : Value → Prop) : Flow → Prop
  | .next => True
  | .returned none => True
  | .returned (some value) => V value

/-- A predicate on values, and one on exceptions that are thrown, which every
operation on values keeps. -/
structure ValueLaws (V X : Value → Prop) : Prop where
  int : ∀ n, V (.int n)
  bool : ∀ b, V (.bool b)
  str : ∀ text, V (.str text)
  literal : ∀ {literal : Literal} {value : Value}, literal.value = .ok value → V value
  binary : ∀ {op : BinaryOp} {left right value : Value}, V left → V right →
    op.apply left right = .ok value → V value
  unary : ∀ {op : UnaryOp} {operand value : Value}, V operand →
    op.apply operand = .ok value → V value
  read : ∀ {slices : List (Value × Value)} {source value : Value}, V source →
    Slice.read slices source = .ok (some value) → V value
  concat : ∀ {values : List Value} {value : Value}, Value.Each V values →
    Slice.concat values = .ok (some value) → V value
  write : ∀ {slices : List (Value × Value)} {bits dest value : Value}, V bits → V dest →
    Slice.write slices bits dest = .ok value → V value
  zeros : ∀ {width value : Value}, V width → width.zeros = .ok value → V value
  tuple : ∀ {items : List Value}, Value.Each V items → V (.tuple items)
  getItem : ∀ {whole value : Value} {index : Nat}, V whole →
    whole.getItem index = .ok value → V value
  setItem : ∀ {whole item value : Value} {index : Nat}, V whole → V item →
    whole.setItem index item = .ok value → V value
  record : ∀ {fields : Named Value} {value : Value}, Named.Each V fields →
    Value.makeRecord fields = .ok value → V value
  exception : ∀ {name : String} {fields : Named Value} {value : Value},
    Named.Each V fields → Value.makeException name fields = .ok value → V value
  getField : ∀ {whole value : Value} {name : String}, V whole →
    whole.getField name = .ok value → V value
  setField : ∀ {whole item value : Value} {name : String}, V whole → V item →
    whole.setField name item = .ok value → V value
  primitive : ∀ {primitive : Primitive} {values : List Value} {reply : Primitive.Reply},
    Value.Each V values → primitive.call values = .ok reply → Value.Each V reply.results
  raised : ∀ {exc : Value} {name : String}, V exc → exc.exceptionName = .ok name → X exc
  caught : ∀ {exc : Value}, X exc → V exc

/-- Nothing has to be kept if nothing is asked of values. -/
theorem ValueLaws.anything : ValueLaws Anything Anything := by
  constructor <;> intros <;> first | trivial | exact fun _ _ => trivial

/-- Closed under the steps that look at no variable. -/
structure PureRel (R : EvalRel) : Prop where
  ret : ∀ {α : Type} {Q : α → Prop} {value : α}, Q value → R α Q (pure value) (pure value)
  bind : ∀ {α β : Type} {Q : α → Prop} {Q' : β → Prop} {left right : Eval α}
    {next next' : α → Eval β}, R α Q left right →
    (∀ value, Q value → R β Q' (next value) (next' value)) →
    R β Q' (left >>= next) (right >>= next')
  fault : ∀ {α : Type} {Q : α → Prop} {cause : Fault},
    R α Q (Effect.fault cause) (Effect.fault cause)
  overflow : ∀ {α : Type} {Q : α → Prop}, R α Q Effect.overflow Effect.overflow
  both : ∀ {α β : Type} {Q : α → Prop} {Q' : β → Prop} {left right : Eval α}
    {left' right' : Eval β}, R α Q left right → R β Q' left' right' →
    R (α × β) (fun values => Q values.1 ∧ Q' values.2)
      (Effect.both left left') (Effect.both right right')

/-- Closed under the steps of expressions. -/
structure ExprRel (V : Value → Prop) (R : EvalRel) : Prop extends PureRel R where
  readVariable : ∀ {name : String}, R Value V (Eval.readVariable name) (Eval.readVariable name)

/-- Closed under the steps of statements too. -/
structure StmtRel (V X : Value → Prop) (R : EvalRel) : Prop extends ExprRel V R where
  writeVariable : ∀ {name : String} {value : Value}, V value →
    R Unit Anything (Eval.writeVariable name value) (Eval.writeVariable name value)
  declareLocal : ∀ {name : String} {value : Value}, V value →
    R Unit Anything (Eval.declareLocal name value) (Eval.declareLocal name value)
  inBlock : ∀ {α : Type} {Q : α → Prop} {left right : Eval α}, R α Q left right →
    R α Q (Eval.inBlock left) (Eval.inBlock right)
  whileHandling : ∀ {α : Type} {Q : α → Prop} {exc : Value} {left right : Eval α}, X exc →
    R α Q left right → R α Q (Eval.whileHandling exc left) (Eval.whileHandling exc right)
  handling : ∀ {α : Type} {Q : α → Prop} {left right : Eval α}
    {handler handler' : Value → Eval α}, R α Q left right →
    (∀ exc, X exc → R α Q (handler exc) (handler' exc)) →
    R α Q (Effect.handling left handler) (Effect.handling right handler')
  throwing : ∀ {α : Type} {Q : α → Prop} {exc : Value}, X exc →
    R α Q (Effect.throwing exc) (Effect.throwing exc)
  raiseAgain : ∀ {α : Type} {Q : α → Prop}, R α Q Eval.raiseAgain Eval.raiseAgain
  exhaust : ∀ {α : Type} {Q : α → Prop}, R α Q Effect.exhaust Effect.exhaust

/-- Closed under the steps of statements, while a closer relation holds between
their expressions. -/
structure StepRel (V X : Value → Prop) (E R : EvalRel) : Prop where
  expr : ExprRel V E
  embed : ∀ {α : Type} {Q : α → Prop} {left right : Eval α}, E α Q left right → R α Q left right
  bind : ∀ {α β : Type} {Q : α → Prop} {Q' : β → Prop} {left right : Eval α}
    {next next' : α → Eval β}, R α Q left right →
    (∀ value, Q value → R β Q' (next value) (next' value)) →
    R β Q' (left >>= next) (right >>= next')
  writeVariable : ∀ {name : String} {value : Value}, V value →
    R Unit Anything (Eval.writeVariable name value) (Eval.writeVariable name value)
  declareLocal : ∀ {name : String} {value : Value}, V value →
    R Unit Anything (Eval.declareLocal name value) (Eval.declareLocal name value)
  inBlock : ∀ {α : Type} {Q : α → Prop} {left right : Eval α}, R α Q left right →
    R α Q (Eval.inBlock left) (Eval.inBlock right)
  whileHandling : ∀ {α : Type} {Q : α → Prop} {exc : Value} {left right : Eval α}, X exc →
    R α Q left right → R α Q (Eval.whileHandling exc left) (Eval.whileHandling exc right)
  handling : ∀ {α : Type} {Q : α → Prop} {left right : Eval α}
    {handler handler' : Value → Eval α}, R α Q left right →
    (∀ exc, X exc → R α Q (handler exc) (handler' exc)) →
    R α Q (Effect.handling left handler) (Effect.handling right handler')
  throwing : ∀ {α : Type} {Q : α → Prop} {exc : Value}, X exc →
    R α Q (Effect.throwing exc) (Effect.throwing exc)
  raiseAgain : ∀ {α : Type} {Q : α → Prop}, R α Q Eval.raiseAgain Eval.raiseAgain
  exhaust : ∀ {α : Type} {Q : α → Prop}, R α Q Effect.exhaust Effect.exhaust

/-- One relation may serve for expressions and statements. -/
theorem StmtRel.stepRel {V X : Value → Prop} {R : EvalRel} (hR : StmtRel V X R) :
    StepRel V X R R where
  expr := hR.toExprRel
  embed := id
  bind := hR.bind
  writeVariable := hR.writeVariable
  declareLocal := hR.declareLocal
  inBlock := hR.inBlock
  whileHandling := hR.whileHandling
  handling := hR.handling
  throwing := hR.throwing
  raiseAgain := hR.raiseAgain
  exhaust := hR.exhaust

/-- Closed under the steps of calls too. -/
structure CallRel (V X : Value → Prop) (R : EvalRel) : Prop extends StmtRel V X R where
  inActivation : ∀ {α : Type} {Q : α → Prop} {name : String} {left right : Eval α},
    R α Q left right → R α Q (Eval.inActivation name left) (Eval.inActivation name right)
  print : ∀ {text : String}, R Unit Anything (Effect.modify (State.print text))
    (Effect.modify (State.print text))

/-- Closed under the steps of calls, while a closer relation holds between whole calls
and between expressions. -/
structure ActivationRel (V X : Value → Prop) (E R : EvalRel) : Prop extends StepRel V X E R where
  inActivation : ∀ {α : Type} {Q : α → Prop} {name : String} {left right : Eval α},
    R α Q left right → E α Q (Eval.inActivation name left) (Eval.inActivation name right)
  print : ∀ {text : String}, E Unit Anything (Effect.modify (State.print text))
    (Effect.modify (State.print text))
  exhaustCall : ∀ {α : Type} {Q : α → Prop}, E α Q Effect.exhaust Effect.exhaust

/-- One relation may serve for calls, expressions and statements. -/
theorem CallRel.activationRel {V X : Value → Prop} {R : EvalRel} (hR : CallRel V X R) :
    ActivationRel V X R R where
  toStepRel := hR.toStmtRel.stepRel
  inActivation := hR.inActivation
  print := hR.print
  exhaustCall := hR.exhaust

/-- Closed under the initialisation of globals too. -/
structure GlobalRel (V X : Value → Prop) (R : EvalRel) : Prop extends CallRel V X R where
  declareGlobal : ∀ {name : String} {value : Value}, V value →
    R Unit Anything (Eval.declareGlobal name value) (Eval.declareGlobal name value)

/-- Closed under the steps of whole runs too. -/
structure RunRel (V X : Value → Prop) (R : EvalRel) : Prop extends GlobalRel V X R where
  whileInitialising : ∀ {α : Type} {Q : α → Prop} {left right : Eval α}, R α Q left right →
    R α Q (Eval.whileInitialising left) (Eval.whileInitialising right)

/-! ## Derived steps -/

section Derived

variable {V X : Value → Prop} {R : EvalRel} {α β : Type} {Q : α → Prop} {Q' : β → Prop}

namespace PureRel

/-- Less may be said about the values. -/
theorem weaken (hR : PureRel R) {Q'' : α → Prop} {left right : Eval α}
    (hrelated : R α Q left right) (himp : ∀ value, Q value → Q'' value) :
    R α Q'' left right := by
  have hbound : R α Q'' (left >>= pure) (right >>= pure) :=
    hR.bind hrelated fun value hvalue => hR.ret (himp value hvalue)
  simpa only [Effect.bind_pure] using hbound

/-- A result that needs no state. -/
theorem lift (hR : PureRel R) {result : Except Fault α}
    (hresult : ∀ value, result = .ok value → Q value) :
    R α Q (Effect.lift result) (Effect.lift result) := by
  cases result with
  | ok value => exact hR.ret (hresult value rfl)
  | error cause => exact hR.fault

/-- A result that may overflow. -/
theorem liftSized (hR : PureRel R) {result : Except Fault (Option α)}
    (hresult : ∀ value, result = .ok (some value) → Q value) :
    R α Q (Effect.liftSized result) (Effect.liftSized result) := by
  refine hR.bind (Q := fun found => ∀ value, found = some value → Q value)
    (hR.lift fun found hfound value hvalue => hresult value (hvalue ▸ hfound)) ?_
  intro found hfound
  cases found with
  | some value => exact hR.ret (hfound value rfl)
  | none => exact hR.overflow

theorem select (hR : PureRel R) {test : Value} {yes yes' no no' : Eval α}
    (hyes : R α Q yes yes') (hno : R α Q no no') :
    R α Q (Effect.select test yes no) (Effect.select test yes' no') := by
  rw [Effect.select, Effect.select]
  apply hR.bind (hR.lift (Q := Anything) fun _ _ => trivial)
  intro outcome _
  cases outcome
  · exact hno
  · exact hyes

theorem pair (hR : PureRel R) {independent : Bool} {left right : Eval α}
    {left' right' : Eval β} (hfirst : R α Q left right) (hsecond : R β Q' left' right') :
    R (α × β) (fun values => Q values.1 ∧ Q' values.2)
      (Eval.pair independent left left') (Eval.pair independent right right') := by
  rw [Eval.pair, Eval.pair]
  cases independent
  · exact hR.bind hfirst fun first hleft =>
      hR.bind hsecond fun second hright => hR.ret ⟨hleft, hright⟩
  · exact hR.both hfirst hsecond

/-- The one result of a call. -/
theorem theResult (hR : PureRel R) {callee : String} {results : List Value}
    (hresults : Value.Each V results) :
    R Value V (Eval.theResult callee results) (Eval.theResult callee results) := by
  match results, hresults with
  | [], _ | _ :: _ :: _, _ => exact hR.fault
  | [value], hvalue => exact hR.ret (hvalue value (List.mem_singleton_self value))

end PureRel

namespace StepRel

variable {E : EvalRel}

theorem ret (hR : StepRel V X E R) {value : α} (hvalue : Q value) :
    R α Q (pure value) (pure value) := hR.embed (hR.expr.ret hvalue)

theorem fault (hR : StepRel V X E R) {cause : Fault} :
    R α Q (Effect.fault cause) (Effect.fault cause) := hR.embed hR.expr.fault

theorem lift (hR : StepRel V X E R) {result : Except Fault α}
    (hresult : ∀ value, result = .ok value → Q value) :
    R α Q (Effect.lift result) (Effect.lift result) := hR.embed (hR.expr.lift hresult)

theorem select (hR : StepRel V X E R) {test : Value} {yes yes' no no' : Eval α}
    (hyes : R α Q yes yes') (hno : R α Q no no') :
    R α Q (Effect.select test yes no) (Effect.select test yes' no') := by
  rw [Effect.select, Effect.select]
  apply hR.bind (hR.lift (Q := Anything) fun _ _ => trivial)
  intro outcome _
  cases outcome
  · exact hno
  · exact hyes

theorem raise (hR : StepRel V X E R) (hV : ValueLaws V X) {exc : Value} (hexc : V exc) :
    R α Q (Eval.raise exc) (Eval.raise exc) := by
  rw [Eval.raise]
  exact hR.bind (Q := fun _ => X exc) (hR.lift fun _ hname => hV.raised hexc hname)
    fun _ hthrown => hR.throwing hthrown

theorem bindCaught (hR : StepRel V X E R) {binding : Option String} {exc : Value} (hexc : V exc) :
    R Unit Anything (Eval.bindCaught binding exc) (Eval.bindCaught binding exc) := by
  cases binding with
  | none => exact hR.ret trivial
  | some name => exact hR.declareLocal hexc

theorem runHandler (hR : StepRel V X E R) (hV : ValueLaws V X) {exc : Value}
    {binding : Option String} {Q : Flow → Prop} {body body' : Eval Flow} (hexc : X exc)
    (hbody : R Flow Q body body') :
    R Flow Q (Eval.runHandler exc binding body) (Eval.runHandler exc binding body') := by
  rw [Eval.runHandler, Eval.runHandler]
  exact hR.whileHandling hexc (hR.inBlock
    (hR.bind (hR.bindCaught (hV.caught hexc)) fun _ _ => hbody))

end StepRel

end Derived

/-! ## Loops -/

/-- A bound on rounds may differ if it grows and giving up is related to
everything. -/
def BoundRel (R : EvalRel) (bound bound' : Nat) : Prop :=
  bound = bound' ∨
    bound ≤ bound' ∧ ∀ (α : Type) (Q : α → Prop) (right : Eval α), R α Q Effect.exhaust right

theorem BoundRel.refl (R : EvalRel) (bound : Nat) : BoundRel R bound bound := .inl rfl

theorem BoundRel.mono {E R : EvalRel} {bound bound' : Nat} (hbound : BoundRel E bound bound')
    (himp : ∀ {α : Type} {Q : α → Prop} {left right : Eval α}, E α Q left right →
      R α Q left right) : BoundRel R bound bound' :=
  hbound.imp id fun hgrows => ⟨hgrows.1, fun α Q right => himp (hgrows.2 α Q right)⟩

/-- A bound above a positive one is positive too. -/
theorem BoundRel.of_succ {R : EvalRel} {bound bound' : Nat}
    (hbound : BoundRel R (bound + 1) bound') :
    ∃ rest, bound' = rest + 1 ∧ BoundRel R bound rest := by
  rcases hbound with rfl | ⟨hle, hexhaust⟩
  · exact ⟨bound, rfl, .refl R bound⟩
  · exact ⟨bound' - 1, by omega, .inr ⟨by omega, hexhaust⟩⟩

/-- The bounds of two loops are related, and so are their warnings. -/
structure LoopRel (R : EvalRel) (left right : Context) : Prop where
  rounds : BoundRel R left.rounds right.rounds
  checkUnroll : ∀ finished, R Unit Anything (Eval.checkUnroll left.unroll finished)
    (Eval.checkUnroll right.unroll finished)

section Loops

variable {V X : Value → Prop} {E R : EvalRel}

theorem StepRel.iterate (hR : StepRel V X E R) {α β : Type} {Q : α → Prop} {Q' : β → Prop}
    {step step' : α → Eval (α ⊕ β)} {rounds rounds' : Nat} (hrounds : BoundRel R rounds rounds')
    (hstep : ∀ current, Q current → R (α ⊕ β) (Sum.elim Q Q') (step current) (step' current))
    {current : α} (hcurrent : Q current) :
    R β Q' (Effect.iterate step rounds current) (Effect.iterate step' rounds' current) := by
  induction rounds generalizing rounds' current with
  | zero =>
      rcases hrounds with rfl | ⟨_, hexhaust⟩
      · exact hR.exhaust
      · exact hexhaust β Q' _
  | succ rounds ih =>
      obtain ⟨rest, rfl, hrest⟩ := hrounds.of_succ
      rw [Effect.iterate_succ, Effect.iterate_succ]
      apply hR.bind (hstep current hcurrent)
      intro outcome houtcome
      cases outcome with
      | inl next => exact ih hrest houtcome
      | inr final => exact hR.ret houtcome

/-- To check the unrolling bound is to warn at most. -/
theorem Eval.checkUnroll_eq (unroll finished : Nat) (before : State) :
    checkUnroll unroll finished before = (.done (), (checkUnroll unroll finished before).2) := by
  rw [checkUnroll]
  split <;> rfl

/-- A counted loop runs one round and then the rest, unless the round
returns. -/
theorem Eval.countedRounds_succ (unroll : Nat) (down : Bool) (index : String) (body : Eval Flow)
    (left : Nat) (current : Int) (finished : Nat) :
    countedRounds unroll down index body (left + 1) current finished =
      ((do
        checkUnroll unroll finished
        countedRound index current body) >>= fun flow =>
          match flow with
          | .next => countedRounds unroll down index body left
              (if down then current - 1 else current + 1) (countRound finished)
          | .returned value => pure (.returned value)) := by
  funext state
  rw [countedRounds]
  generalize (do
    checkUnroll unroll finished
    countedRound index current body : Eval Flow) = round
  change _ = Effect.bind round _ state
  rw [Effect.bind]
  rcases round state with ⟨outcome, after⟩
  cases outcome with
  | done flow => cases flow <;> rfl
  | thrown | failed | overflowed | exhausted => rfl

theorem StepRel.countedRounds (hR : StepRel V X E R) (hV : ValueLaws V X) {left right : Context}
    (hloop : LoopRel R left right) {down : Bool} {index : String} {body body' : Eval Flow}
    (hbody : R Flow (Flow.Returns V) body body') (rounds : Nat) (current : Int)
    (finished : Nat) :
    R Flow (Flow.Returns V)
      (Eval.countedRounds left.unroll down index body rounds current finished)
      (Eval.countedRounds right.unroll down index body' rounds current finished) := by
  induction rounds generalizing current finished with
  | zero => exact hR.ret trivial
  | succ rounds ih =>
      have hround : R Flow (Flow.Returns V) (Eval.countedRound index current body)
          (Eval.countedRound index current body') :=
        hR.inBlock (hR.bind (hR.declareLocal (hV.int current)) fun _ _ => hbody)
      rw [Eval.countedRounds_succ, Eval.countedRounds_succ]
      apply hR.bind (hR.bind (hloop.checkUnroll finished) fun _ _ => hround)
      intro flow hflow
      cases flow with
      | next => exact ih _ _
      | returned value => exact hR.ret hflow

theorem StepRel.countedLoop (hR : StepRel V X E R) (hV : ValueLaws V X) {left right : Context}
    (hloop : LoopRel R left right) {down : Bool} {index : String} {first last : Value}
    {body body' : Eval Flow} (hbody : R Flow (Flow.Returns V) body body') :
    R Flow (Flow.Returns V) (Eval.countedLoop left.unroll down index first last body)
      (Eval.countedLoop right.unroll down index first last body') := by
  rw [Eval.countedLoop, Eval.countedLoop]
  exact hR.bind (Q := Anything) (hR.lift fun _ _ => trivial) fun _ _ =>
    hR.countedRounds hV hloop hbody _ _ _

theorem StepRel.testedLoop (hR : StepRel V X E R) {left right : Context}
    (hloop : LoopRel R left right) {test test' : Eval Value} {body body' : Eval Flow}
    (htest : R Value V test test') (hbody : R Flow (Flow.Returns V) body body') :
    R Flow (Flow.Returns V) (Eval.testedLoop left.unroll left.rounds test body)
      (Eval.testedLoop right.unroll right.rounds test' body') := by
  rw [Eval.testedLoop, Eval.testedLoop]
  refine hR.iterate (Q := Anything) hloop.rounds (fun finished _ => ?_) trivial
  rw [Eval.testedRound, Eval.testedRound]
  refine hR.bind htest fun value _ => hR.select ?_ (hR.ret trivial)
  refine hR.bind (hloop.checkUnroll finished) fun _ _ =>
    hR.bind (hR.inBlock hbody) fun flow hflow => ?_
  cases flow with
  | next => exact hR.ret trivial
  | returned value => exact hR.ret hflow

end Loops

end ArchSpec
