import ArchSpec.Proofs.LoopUnfolding

/-!
# Warnings of unrolled loops

A loop looks at its count of finished rounds whenever it starts a round, and warns if
that equals the unrolling bound.  The count stops at the largest 32-bit number, so it
passes any smaller bound once.  If that number is the bound itself, the count stays
there, and every further round warns again.
-/

namespace ArchSpec

variable {α : Type}

/-- A round that a loop has started: the state in which it was decided, and the one in
which it begins. -/
structure StartedRound where
  decided : State
  begun : State

/-- The warnings that were raised in between. -/
def StartedRound.raised (round : StartedRound) : Nat :=
  round.begun.warnings.length - round.decided.warnings.length

/-- The warnings that a loop raises itself, apart from those raised inside its rounds. -/
def ownWarnings (started : List StartedRound) : Nat := (started.map StartedRound.raised).sum

/-- One warning if more rounds are started than the unrolling bound, else none. -/
def WarnsOnce (unroll : Nat) (started : List StartedRound) : Prop :=
  0 < unroll → ownWarnings started = if unroll < started.length then 1 else 0

namespace Eval

/-! ## Rounds that are listed -/

/-- An execution that also lists the rounds that one loop starts. -/
abbrev Listed := State → List StartedRound × (Outcome Flow × State)

namespace Listed

/-- The execution alone. -/
def run (body : Listed) : Eval Flow := fun state => (body state).2

/-- An execution that starts no round. -/
def silent (body : Eval Flow) : Listed := fun state => ([], body state)

/-- What comes after a computation that starts no round. -/
def after (first : Eval α) (next : α → Listed) : Listed := fun state =>
  match first state with
  | (.done value, state) => next value state
  | (.thrown exc, state) => ([], (.thrown exc, state))
  | (.failed cause, state) => ([], (.failed cause, state))
  | (.overflowed, state) => ([], (.overflowed, state))
  | (.exhausted, state) => ([], (.exhausted, state))

/-- Starts a round after so many finished ones. -/
def startRound (unroll finished : Nat) (rest : Listed) : Listed := fun state =>
  let begun := (checkUnroll unroll finished state).2
  let ended := rest begun
  (⟨state, begun⟩ :: ended.1, ended.2)

/-- A loop by its steps: whether there is another round, and that round. -/
def loop (unroll : Nat) (more : Nat → Eval Bool) (round : Nat → Eval Flow) :
    Nat → Nat → Nat → Listed
  | 0, _, _ => silent Effect.exhaust
  | steps + 1, started, finished =>
      after (more started) fun
        | false => silent (pure .next)
        | true => startRound unroll finished (after (round started) fun
          | .next => loop unroll more round steps (started + 1) (countRound finished)
          | .returned value => silent (pure (.returned value)))

theorem run_after (first : Eval α) (next : α → Listed) :
    (after first next).run = first >>= fun value => (next value).run := by
  funext state
  change _ = Effect.bind first _ state
  rw [run, after, Effect.bind]
  rcases first state with ⟨outcome, between⟩
  cases outcome <;> rfl

theorem run_startRound (unroll finished : Nat) (rest : Listed) :
    (startRound unroll finished rest).run = (do
      checkUnroll unroll finished
      rest.run) := by
  funext state
  rw [Effect.bind_of_done (checkUnroll_eq unroll finished state)]
  rfl

variable {unroll : Nat} {more : Nat → Eval Bool} {round : Nat → Eval Flow}

theorem run_loop_succ (steps started finished : Nat) :
    (loop unroll more round (steps + 1) started finished).run = (do
      let another ← more started
      if another then
        checkUnroll unroll finished
        round started >>= andThen
          (loop unroll more round steps (started + 1) (countRound finished)).run
      else pure .next) := by
  rw [loop, run_after]
  congr 1
  funext another
  cases another with
  | false => rfl
  | true =>
      rw [run_startRound, run_after]
      congr 1
      funext _
      congr 1
      funext flow
      cases flow <;> rfl

/-! ## The two loops -/

/-- A loop that tests before every round. -/
def tested (unroll rounds : Nat) (test : Eval Value) (body : Eval Flow) : Listed :=
  loop unroll (fun _ => test >>= fun value => Effect.lift value.asBool) (fun _ => inBlock body)
    rounds 0 0

theorem run_tested (unroll rounds : Nat) (test : Eval Value) (body : Eval Flow) :
    (tested unroll rounds test body).run = testedLoop unroll rounds test body := by
  suffices hall : ∀ started finished, (loop unroll _ _ rounds started finished).run =
      Effect.iterate (testedRound unroll test body) rounds finished from hall 0 0
  induction rounds with
  | zero => intro _ _; rfl
  | succ rounds ih =>
      intro started finished
      rw [run_loop_succ, iterate_testedRound_succ, Effect.bind_assoc, ih]
      rfl

/-- The index after so many rounds. -/
def indexAfter (down : Bool) (first : Int) (passed : Nat) : Int :=
  if down then first - passed else first + passed

theorem indexAfter_succ (down : Bool) (first : Int) (passed : Nat) :
    indexAfter down first (passed + 1) =
      if down then indexAfter down first passed - 1 else indexAfter down first passed + 1 := by
  cases down <;> simp [indexAfter] <;> omega

/-- A loop over the indices from one on. -/
def counted (unroll : Nat) (down : Bool) (index : String) (count : Nat) (first : Int)
    (body : Eval Flow) : Listed :=
  loop unroll (fun started => pure (decide (started < count)))
    (fun started => countedRound index (indexAfter down first started) body) (count + 1) 0 0

theorem run_counted (unroll : Nat) (down : Bool) (index : String) (count : Nat) (first : Int)
    (body : Eval Flow) :
    (counted unroll down index count first body).run =
      countedRounds unroll down index body count first 0 := by
  have hall (left started finished : Nat) (hleft : started + left = count) :
      (loop unroll (fun started => pure (decide (started < count)))
        (fun started => countedRound index (indexAfter down first started) body)
        (left + 1) started finished).run =
      countedRounds unroll down index body left (indexAfter down first started) finished := by
    induction left generalizing started finished with
    | zero =>
        rw [run_loop_succ, Effect.pure_bind, if_neg (by simp; omega)]
        rfl
    | succ left ih =>
        rw [run_loop_succ, Effect.pure_bind, if_pos (by simp; omega), countedRounds_succ,
          ih (started + 1) (countRound finished) (by omega), Effect.bind_assoc, indexAfter_succ]
        rfl
  have hfirst : indexAfter down first 0 = first := by cases down <;> simp [indexAfter]
  rw [counted, hall count 0 0 (Nat.zero_add count), hfirst]

/-! ## The warnings of a loop -/

theorem raised_check (unroll finished : Nat) (state : State) :
    StartedRound.raised ⟨state, (checkUnroll unroll finished state).2⟩ =
      if 0 < unroll ∧ finished = unroll then 1 else 0 := by
  rw [StartedRound.raised, checkUnroll]
  split
  · change (_ :: state.warnings).length - state.warnings.length = 1
    rw [List.length_cons]
    omega
  · exact Nat.sub_self _

/-- What is listed after a computation, unless nothing comes after it. -/
theorem list_after {P : List StartedRound → Prop} {first : Eval α} {next : α → Listed}
    (hnil : P []) (hnext : ∀ value state, P (next value state).1) (state : State) :
    P (after first next state).1 := by
  rw [after]
  rcases first state with ⟨outcome, between⟩
  cases outcome with
  | done value => exact hnext value between
  | thrown | failed | overflowed | exhausted => exact hnil

/-- The warnings that are due after so many finished rounds, when so many are started. -/
def warningsDue (unroll finished started : Nat) : Nat :=
  if unroll < roundLimit then if finished ≤ unroll ∧ unroll < finished + started then 1 else 0
  else started - (roundLimit - finished)

theorem warningsDue_zero (unroll finished : Nat) : warningsDue unroll finished 0 = 0 := by
  rw [warningsDue]
  split_ifs <;> omega

theorem warningsDue_succ {unroll finished : Nat} (hunroll : unroll ≤ roundLimit)
    (hfinished : finished ≤ roundLimit) (started : Nat) :
    warningsDue unroll finished (started + 1) =
      (if finished = unroll then 1 else 0) + warningsDue unroll (countRound finished) started := by
  rw [warningsDue, warningsDue, countRound]
  by_cases hbelow : unroll < roundLimit
  · rw [if_pos hbelow, if_pos hbelow]
    split_ifs <;> omega
  · rw [if_neg hbelow, if_neg hbelow]
    split_ifs <;> omega

/-- The rounds that a loop starts after so many finished ones raise what is due. -/
def Due (unroll finished : Nat) (started : List StartedRound) : Prop :=
  ownWarnings started = warningsDue unroll finished started.length

theorem due_nil (unroll finished : Nat) : Due unroll finished [] :=
  (warningsDue_zero unroll finished).symm

theorem due_cons (hpositive : 0 < unroll) (hunroll : unroll ≤ roundLimit) {finished : Nat}
    (hfinished : finished ≤ roundLimit) (state : State) {rest : List StartedRound}
    (hrest : Due unroll (countRound finished) rest) :
    Due unroll finished (⟨state, (checkUnroll unroll finished state).2⟩ :: rest) := by
  rw [Due, List.length_cons, warningsDue_succ hunroll hfinished, ← hrest, ownWarnings,
    List.map_cons, List.sum_cons, raised_check, ownWarnings]
  simp only [hpositive, true_and]

/-- The count of finished rounds passes a bound below its limit once, and stays at its
limit. -/
theorem due_loop (hpositive : 0 < unroll) (hunroll : unroll ≤ roundLimit) (steps started : Nat)
    {finished : Nat} (hfinished : finished ≤ roundLimit) (state : State) :
    Due unroll finished (loop unroll more round steps started finished state).1 := by
  induction steps generalizing started finished state with
  | zero => exact due_nil unroll finished
  | succ steps ih =>
      refine list_after (due_nil unroll finished) (fun another state => ?_) state
      cases another with
      | false => exact due_nil unroll finished
      | true =>
          refine due_cons hpositive hunroll hfinished state ?_
          refine list_after (due_nil unroll _) (fun flow state => ?_) _
          cases flow with
          | next => exact ih (started + 1) (Nat.min_le_right _ _) state
          | returned value => exact due_nil unroll _

/-- A loop with so many indices starts a round for each, if none ends in another way than
normally. -/
theorem length_loop {count : Nat} (hround : ∀ started state, (round started state).1 = .done .next)
    (steps started finished : Nat) (hsteps : count < started + steps) (state : State) :
    (loop unroll (fun started => pure (decide (started < count))) round steps started finished
      state).1.length = count - started := by
  induction steps generalizing started finished state with
  | zero =>
      change 0 = count - started
      omega
  | succ steps ih =>
      have hafter (next : Bool → Listed) : after (pure (decide (started < count))) next state =
          next (decide (started < count)) state := rfl
      rw [loop, hafter]
      by_cases hmore : started < count
      · have hdone := hround started (checkUnroll unroll finished state).2
        rw [decide_eq_true hmore]
        change (_ :: (after (round started) _ (checkUnroll unroll finished state).2).1).length = _
        rcases hrun : round started (checkUnroll unroll finished state).2 with ⟨outcome, inside⟩
        rw [hrun] at hdone
        obtain rfl : outcome = .done .next := hdone
        simp only [after, hrun, List.length_cons]
        rw [ih (started + 1) _ (by omega)]
        omega
      · rw [decide_eq_false hmore]
        change 0 = count - started
        omega

/-- All warnings of an execution are those of the rounds that it lists. -/
def AllOwn (body : Listed) : Prop :=
  ∀ state, (body state).2.2.warnings.length = ownWarnings (body state).1 + state.warnings.length

theorem allOwn_silent {body : Eval Flow}
    (hbody : ∀ state, (body state).2.warnings = state.warnings) : AllOwn (silent body) := by
  intro state
  change (body state).2.warnings.length = 0 + state.warnings.length
  rw [hbody, Nat.zero_add]

theorem allOwn_after {first : Eval α} {next : α → Listed}
    (hfirst : ∀ state, (first state).2.warnings = state.warnings)
    (hnext : ∀ value, AllOwn (next value)) : AllOwn (after first next) := by
  intro state
  rw [after, ← hfirst state]
  rcases first state with ⟨outcome, between⟩
  cases outcome with
  | done value => exact hnext value between
  | thrown | failed | overflowed | exhausted => exact (Nat.zero_add _).symm

theorem allOwn_startRound {rest : Listed} (finished : Nat) (hrest : AllOwn rest) :
    AllOwn (startRound unroll finished rest) := by
  intro state
  have hraised : (checkUnroll unroll finished state).2.warnings.length =
      StartedRound.raised ⟨state, (checkUnroll unroll finished state).2⟩ +
        state.warnings.length := by
    rw [raised_check, checkUnroll]
    split
    · exact Nat.add_comm _ _
    · exact (Nat.zero_add _).symm
  have hended := hrest (checkUnroll unroll finished state).2
  change (rest _).2.2.warnings.length = ownWarnings (_ :: (rest _).1) + _
  rw [hended, hraised, ownWarnings, ownWarnings, List.map_cons, List.sum_cons]
  omega

/-- Where nothing else warns, a loop raises no warnings but its own. -/
theorem allOwn_loop (hmore : ∀ started state, (more started state).2.warnings = state.warnings)
    (hround : ∀ started state, (round started state).2.warnings = state.warnings)
    (steps started finished : Nat) : AllOwn (loop unroll more round steps started finished) := by
  induction steps generalizing started finished with
  | zero => exact allOwn_silent fun _ => rfl
  | succ steps ih =>
      refine allOwn_after (hmore started) fun another => ?_
      cases another with
      | false => exact allOwn_silent fun _ => rfl
      | true =>
          refine allOwn_startRound finished (allOwn_after (hround started) fun flow => ?_)
          cases flow with
          | next => exact ih (started + 1) (countRound finished)
          | returned value => exact allOwn_silent fun _ => rfl

end Listed

theorem roundLimit_pos : 0 < roundLimit := by decide

/-- The promise is kept by a loop that raises what is due, exactly if its bound is below
the limit of the count, or it starts one round more than the limit at most. -/
theorem warnsOnce_iff_of_due {unroll : Nat} (hunroll : unroll ≤ roundLimit)
    {started : List StartedRound} (hdue : 0 < unroll → Listed.Due unroll 0 started) :
    WarnsOnce unroll started ↔ unroll < roundLimit ∨ started.length ≤ roundLimit + 1 := by
  have hlimit := roundLimit_pos
  by_cases hpositive : 0 < unroll
  · rw [WarnsOnce, hdue hpositive, Listed.warningsDue]
    split_ifs <;> omega
  · exact iff_of_true (fun hunroll => absurd hunroll hpositive) (.inl (by omega))

end Eval

open Eval

/-- An execution of a loop, with the rounds that it starts; other statements start
none. -/
def Stmt.listed (context : Context) : Stmt → Listed
  | .count index first last down body =>
      .after (pair (first.callFree && last.callFree) (first.eval context.calls)
        (last.eval context.calls)) fun values =>
          .after (Effect.lift (loopBounds down values.1 values.2)) fun bounds =>
            .counted context.unroll down index (roundCount down bounds.1 bounds.2) bounds.1
              (body.exec context)
  | .loop test body =>
      .tested context.unroll context.rounds (test.eval context.calls) (body.exec context)
  | stmt => .silent (stmt.exec context)

theorem Stmt.run_listed (context : Context) (stmt : Stmt) :
    (stmt.listed context).run = stmt.exec context := by
  cases stmt with
  | count index first last down body =>
      simp only [Stmt.listed, Stmt.exec, Listed.run_after, Listed.run_counted]
      rfl
  | loop test body =>
      simp only [Stmt.listed, Stmt.exec, Listed.run_tested]
  | _ => rfl

theorem Stmt.listed_due {context : Context} (hpositive : 0 < context.unroll)
    (hunroll : context.unroll ≤ roundLimit) (stmt : Stmt) (before : State) :
    Listed.Due context.unroll 0 (stmt.listed context before).1 := by
  have hnil := Listed.due_nil context.unroll 0
  cases stmt with
  | count index first last down body =>
      refine Listed.list_after hnil (fun values state => ?_) before
      refine Listed.list_after hnil (fun bounds state => ?_) state
      exact Listed.due_loop hpositive hunroll _ _ (Nat.zero_le _) state
  | loop test body => exact Listed.due_loop hpositive hunroll _ _ (Nat.zero_le _) before
  | _ => exact hnil

/-- Whatever a loop does, and however often, it raises one warning if it starts more
rounds than the unrolling bound, and none otherwise, exactly if the bound is not the
largest number that the loop counts to, or it starts no further round after the first one
beyond it. -/
theorem Stmt.warnsOnce_iff (calls : Calls) (rounds : Nat) (unroll : UInt32) (stmt : Stmt)
    (before : State) :
    let context : Context := ⟨calls, rounds, unroll.toNat⟩
    let listed := stmt.listed context before
    listed.2 = stmt.exec context before ∧
      (WarnsOnce unroll.toNat listed.1 ↔
        unroll.toNat < roundLimit ∨ listed.1.length ≤ roundLimit + 1) := by
  intro context listed
  have hunroll : unroll.toNat ≤ roundLimit := Nat.le_pred_of_lt unroll.toNat_lt
  exact ⟨congrFun (stmt.run_listed context) before,
    warnsOnce_iff_of_due hunroll fun hpositive => stmt.listed_due hpositive hunroll before⟩

/-- A loop that does nothing. -/
def Stmt.idle (first last : Int) : Stmt :=
  .count "i" (.literal (.int first)) (.literal (.int last)) false .pass

theorem Stmt.listed_idle (context : Context) (first last : Int) (before : State) :
    (Stmt.idle first last).listed context before =
      Listed.counted context.unroll false "i" (roundCount false first last) first
        (Stmt.pass.exec context) before := rfl

/-- It starts a round for every index, and warns in each of them that comes after the
count has reached its limit. -/
theorem Stmt.warnings_idle {context : Context} (hunroll : context.unroll = roundLimit)
    (first last : Int) (before : State) :
    let listed := (Stmt.idle first last).listed context before
    listed.1.length = roundCount false first last ∧
      ownWarnings listed.1 = roundCount false first last - roundLimit ∧
      listed.2.2.warnings.length =
        roundCount false first last - roundLimit + before.warnings.length := by
  intro listed
  have hlisted : listed = _ := Stmt.listed_idle context first last before
  have hlength : listed.1.length = roundCount false first last := by
    rw [hlisted]
    exact Listed.length_loop (fun _ _ => rfl) _ 0 0 (by omega) _
  have hown : ownWarnings listed.1 = roundCount false first last - roundLimit := by
    have hdue : Listed.Due context.unroll 0 listed.1 :=
      (Stmt.idle first last).listed_due (hunroll ▸ roundLimit_pos) (Nat.le_of_eq hunroll) before
    rw [hdue, hlength, hunroll, Listed.warningsDue, if_neg (Nat.lt_irrefl _), Nat.sub_zero]
  have hall : listed.2.2.warnings.length = ownWarnings listed.1 + before.warnings.length := by
    rw [hlisted]
    exact Listed.allOwn_loop (fun _ _ => rfl) (fun _ _ => rfl) _ 0 0 before
  exact ⟨hlength, hown, hown ▸ hall⟩

/-- With the largest unrolling bound a loop over two indices more than that warns
twice. -/
theorem Stmt.idle_warns_twice {context : Context} (hunroll : context.unroll = roundLimit)
    {first last : Int} (hcount : roundCount false first last = roundLimit + 2) (before : State) :
    let listed := (Stmt.idle first last).listed context before
    listed.2 = (Stmt.idle first last).exec context before ∧
      listed.2.2.warnings.length = 2 + before.warnings.length ∧
      ¬WarnsOnce context.unroll listed.1 := by
  intro listed
  obtain ⟨hlength, hown, hall⟩ := Stmt.warnings_idle hunroll first last before
  rw [hcount, Nat.add_sub_cancel_left] at hown hall
  refine ⟨congrFun ((Stmt.idle first last).run_listed context) before, hall, fun hwarns => ?_⟩
  have hone := hwarns (hunroll ▸ roundLimit_pos)
  rw [hown, hlength, hcount, hunroll, if_pos (by omega)] at hone
  omega

/-- A loop from one to the largest number that it counts to, and two rounds further. -/
theorem Stmt.not_warnsOnce :
    let context : Context := ⟨callWithin (fun _ => none) roundLimit 0, 0, roundLimit⟩
    let listed := (Stmt.idle 1 4294967297).listed context .entered
    listed.2 = (Stmt.idle 1 4294967297).exec context .entered ∧
      listed.2.2.warnings.length = 2 + State.entered.warnings.length ∧
      ¬WarnsOnce roundLimit listed.1 :=
  Stmt.idle_warns_twice rfl (by decide) .entered

end ArchSpec
