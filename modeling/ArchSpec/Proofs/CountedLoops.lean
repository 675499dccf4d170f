import ArchSpec.Proofs.Shadowing

/-!
# Counted loops

A loop with integer bounds runs its body once for each index between them, in
order, until a round does not end normally.  The index is held apart from the
variables: every round binds it anew in a block of its own, so that the body may
assign it, or the variables in the bounds, and neither the rounds to come nor an
outer variable of the same name see that.
-/

namespace ArchSpec

namespace Eval

open Storage (Settled Buried)

variable {unroll finished count : Nat} {down : Bool} {index : String} {body : Eval Flow}
variable {current first last : Int} {before start : State} {run : Outcome Flow × State}

/-! ## Indices -/

/-- So many indices from one on, each one further than the one before. -/
def indicesFrom (down : Bool) (count : Nat) (current : Int) : List Int :=
  (List.range count).map fun (passed : Nat) => if down then current - passed else current + passed

/-- The indices of a loop, in the order of its rounds. -/
def indices (down : Bool) (first last : Int) : List Int :=
  indicesFrom down (roundCount down first last) first

theorem indicesFrom_succ (down : Bool) (count : Nat) (current : Int) :
    indicesFrom down (count + 1) current =
      current :: indicesFrom down count (if down then current - 1 else current + 1) := by
  rw [indicesFrom, List.range_succ_eq_map, List.map_cons, List.map_map, indicesFrom]
  refine congrArg₂ List.cons ?_ (List.map_congr_left fun passed _ => ?_)
  · cases down <;> simp
  · cases down
    · simp only [Function.comp_apply, Bool.false_eq_true, if_false, Nat.succ_eq_add_one]
      omega
    · simp only [Function.comp_apply, if_true, Nat.succ_eq_add_one]
      omega

theorem length_indices (down : Bool) (first last : Int) :
    ((indices down first last).length : Int) =
      max 0 (if down then first - last + 1 else last - first + 1) := by
  rw [indices, indicesFrom, List.length_map, List.length_range, roundCount]
  omega

/-! ## Rounds -/

/-- The state in which the body of a round begins. -/
def roundStart (unroll : Nat) (index : String) (finished : Nat) (current : Int) (before : State) :
    State :=
  let entered := (checkUnroll unroll finished before).2.onStorage Storage.pushBlock
  (entered.note .write index entered.storage.currentScope).onStorage
    (·.declare index (.int current))

/-- The state after a round whose body has ended. -/
def roundEnd (outcome : Outcome Flow) (inside : State) : State :=
  match outcome with
  | .done _ | .thrown _ => inside.onStorage Storage.popBlock
  | .failed _ | .overflowed | .exhausted => inside

/-- A round is the body and nothing else. -/
theorem round_eq (unroll finished : Nat) (index : String) (current : Int) (body : Eval Flow)
    (before : State) :
    (do
      checkUnroll unroll finished
      countedRound index current body : Eval Flow) before =
      (let ended := body (roundStart unroll index finished current before)
       (ended.1, roundEnd ended.1 ended.2)) := by
  have hinside : (do
      declareLocal index (.int current)
      body : Eval Flow) ((checkUnroll unroll finished before).2.onStorage Storage.pushBlock) =
      body (roundStart unroll index finished current before) := rfl
  rw [Effect.bind_of_done (checkUnroll_eq unroll finished before), countedRound, inBlock,
    Effect.within, hinside]
  rcases body (roundStart unroll index finished current before) with ⟨outcome, inside⟩
  cases outcome <;> rfl

/-- One execution of the body of a loop: the index of its round, and the state in which
it began. -/
structure Iteration where
  index : Int
  start : State

/-- From a state, after some finished rounds, the body is executed for indices of a list,
and the loop ends in another state. -/
inductive Rounds (unroll : Nat) (index : String) (body : Eval Flow) :
    List Int → Nat → State → List Iteration → Outcome Flow × State → Prop where
  /-- All indices have been visited. -/
  | complete {finished : Nat} {before : State} :
      Rounds unroll index body [] finished before [] (.done .next, before)
  /-- The body ended normally, and the next index follows. -/
  | next {current : Int} {rest : List Int} {finished : Nat} {before inside : State}
      {visited : List Iteration} {run : Outcome Flow × State}
      (hbody : body (roundStart unroll index finished current before) = (.done .next, inside))
      (hrest : Rounds unroll index body rest (countRound finished)
        (roundEnd (.done .next) inside) visited run) :
      Rounds unroll index body (current :: rest) finished before
        (⟨current, roundStart unroll index finished current before⟩ :: visited) run
  /-- The body ended in another way, and so does the loop. -/
  | stopped {current : Int} {rest : List Int} {finished : Nat} {before inside : State}
      {outcome : Outcome Flow}
      (hbody : body (roundStart unroll index finished current before) = (outcome, inside))
      (hstop : outcome ≠ .done .next) :
      Rounds unroll index body (current :: rest) finished before
        [⟨current, roundStart unroll index finished current before⟩]
        (outcome, roundEnd outcome inside)

theorem exists_rounds (unroll : Nat) (down : Bool) (index : String) (body : Eval Flow)
    (count : Nat) (current : Int) (finished : Nat) (before : State) :
    ∃ visited, Rounds unroll index body (indicesFrom down count current) finished before visited
      (countedRounds unroll down index body count current finished before) := by
  induction count generalizing current finished before with
  | zero => exact ⟨[], .complete⟩
  | succ count ih =>
      rw [indicesFrom_succ, countedRounds]
      simp only [round_eq]
      rcases hbody : body (roundStart unroll index finished current before) with
        ⟨outcome, inside⟩
      by_cases hnext : outcome = .done .next
      · subst hnext
        obtain ⟨visited, hrest⟩ := ih (if down then current - 1 else current + 1)
          (countRound finished) (roundEnd (.done .next) inside)
        exact ⟨_, .next hbody hrest⟩
      · refine ⟨[⟨current, roundStart unroll index finished current before⟩], ?_⟩
        cases outcome with
        | done flow =>
            cases flow with
            | next => exact absurd rfl hnext
            | returned value => exact .stopped hbody hnext
        | thrown | failed | overflowed | exhausted => exact .stopped hbody hnext

namespace Rounds

variable {todo : List Int} {visited : List Iteration}

theorem indices_prefix (hrounds : Rounds unroll index body todo finished before visited run) :
    visited.map Iteration.index <+: todo := by
  induction hrounds with
  | complete => exact List.prefix_refl _
  | next _ _ ih => exact List.cons_prefix_cons.mpr ⟨rfl, ih⟩
  | stopped _ _ => exact List.cons_prefix_cons.mpr ⟨rfl, List.nil_prefix⟩

/-- A loop ends normally exactly if it gets through all indices and each round does. -/
theorem next_iff (hrounds : Rounds unroll index body todo finished before visited run) :
    run.1 = .done .next ↔ visited.map Iteration.index = todo ∧
      ∀ iteration ∈ visited, (body iteration.start).1 = .done .next := by
  induction hrounds with
  | complete => simp
  | next hbody _ ih => simp [ih, hbody]
  | stopped hbody hstop => simp [hbody, hstop]

/-- A loop that ends in another way does so as the last round did, and no round before
that did. -/
theorem exists_last (hrounds : Rounds unroll index body todo finished before visited run)
    (hstop : run.1 ≠ .done .next) :
    ∃ passed last, visited = passed ++ [last] ∧ (body last.start).1 = run.1 ∧
      ∀ earlier ∈ passed, (body earlier.start).1 = .done .next := by
  induction hrounds with
  | complete => exact absurd rfl hstop
  | next hbody _ ih =>
      obtain ⟨passed, last, rfl, hlast, hpassed⟩ := ih hstop
      refine ⟨_ :: passed, last, rfl, hlast, List.forall_mem_cons.mpr ⟨?_, hpassed⟩⟩
      rw [hbody]
  | stopped hbody _ => exact ⟨[], _, rfl, by rw [hbody], by simp⟩

end Rounds

/-! ## The block of a round -/

theorem storage_checkUnroll (unroll finished : Nat) (before : State) :
    (checkUnroll unroll finished before).2.storage = before.storage := by
  rw [checkUnroll]
  split <;> rfl

variable {frame : Frame Value} {rest : List (Frame Value)} {shared : Bool} {Q : Flow → Prop}

theorem storage_roundStart (hframes : before.storage.frames = frame :: rest) :
    (roundStart unroll index finished current before).storage =
      { before.storage with frames := frame.enter [(index, .int current)] :: rest } := by
  have hentered : (checkUnroll unroll finished before).2.storage.pushBlock =
      { before.storage with frames := frame.enter [] :: rest } := by
    rw [storage_checkUnroll, Storage.pushBlock, Storage.onFrame, hframes]
    rfl
  change (checkUnroll unroll finished before).2.storage.pushBlock.declare index (.int current) = _
  rw [hentered]
  rfl

theorem frames_roundStart (hframes : before.storage.frames = frame :: rest) :
    (roundStart unroll index finished current before).storage.frames =
      frame.enter [(index, .int current)] :: rest := by
  rw [storage_roundStart hframes]

theorem outside_roundStart (hframes : before.storage.frames = frame :: rest) :
    (roundStart unroll index finished current before).storage.outside shared =
      before.storage.outside shared := by
  rw [storage_roundStart hframes]
  rfl

/-- However a round ends, it leaves outer bindings of the index alone. -/
theorem ends_round (hbody : Shades index shared Q body) {outcome : Outcome Flow} {inside : State}
    (hrun : body (roundStart unroll index finished current before) = (outcome, inside)) :
    Ends (Settled (Blocks.Same index) shared) (Buried (Blocks.Same index) shared) Anything before
      (outcome, roundEnd outcome inside) := by
  have hend := hbody (roundStart unroll index finished current before)
  rw [hrun] at hend
  have hindex : Named.get? [(index, Value.int current)] index ≠ none := by simp [Named.get?]
  have hleft : Buried (Blocks.Same index) shared before.storage inside.storage := by
    intro frame rest hframes
    obtain ⟨extra, top, hlies⟩ := hend.left _ _ (frames_roundStart hframes)
    obtain ⟨top, hlies⟩ := Storage.lies_of_entered (Storage.uncovers_bound hindex)
      (outside_roundStart hframes) hlies
    exact ⟨extra, top, hlies⟩
  have hsettled : outcome.Nonfatal →
      Settled (Blocks.Same index) shared before.storage inside.storage.popBlock := by
    intro hnonfatal frame rest hframes
    exact Storage.lies_popBlock (Storage.uncovers_bound hindex) (outside_roundStart hframes)
      (hend.settled hnonfatal _ _ (frames_roundStart hframes))
  cases outcome with
  | done | thrown => exact ⟨fun _ _ => trivial, hsettled, (hsettled trivial).buried⟩
  | failed | overflowed | exhausted => exact ⟨fun _ _ => trivial, False.elim, hleft⟩

/-- An execution of the body begins in a block with nothing but the index.  Around it
are the blocks of the current frame, with the outer variables of that name as they
were. -/
def Iteration.Fresh (index : String) (before : State) (iteration : Iteration) : Prop :=
  ∀ frame rest, before.storage.frames = frame :: rest →
    ∃ kept : Frame Value, iteration.start.storage.frames =
        kept.enter [(index, .int iteration.index)] :: rest ∧
      kept.scope = frame.scope ∧ Blocks.Same index frame.blocks kept.blocks

namespace Rounds

variable {todo : List Int} {visited : List Iteration}

theorem ends (hbody : Shades index shared Q body)
    (hrounds : Rounds unroll index body todo finished before visited run) :
    Ends (Settled (Blocks.Same index) shared) (Buried (Blocks.Same index) shared) Anything before
      run := by
  have hlaws := settled_laws (S := Blocks.Same index) shared
    (Blocks.same_equivalence Value index).refl (Blocks.same_equivalence Value index).trans
  induction hrounds with
  | complete => exact .of_settled hlaws (fun _ _ => trivial) (hlaws.refl _)
  | next hrun _ ih => exact ih.following hlaws ((ends_round hbody hrun).settled trivial)
  | stopped hrun _ => exact ends_round hbody hrun

theorem fresh (hbody : Shades index false Q body)
    (hrounds : Rounds unroll index body todo finished before visited run) :
    ∀ iteration ∈ visited, iteration.Fresh index before := by
  have hhere {current : Int} {finished : Nat} {before : State} :
      Iteration.Fresh index before
        ⟨current, roundStart unroll index finished current before⟩ := by
    intro frame rest hframes
    exact ⟨frame, frames_roundStart hframes, rfl, (Blocks.same_equivalence Value index).refl _⟩
  induction hrounds with
  | complete => simp
  | next hrun _ ih =>
      refine List.forall_mem_cons.mpr ⟨hhere, fun iteration hiteration frame rest hframes => ?_⟩
      -- a later round begins in what this one has left of the frame
      have hround := (ends_round hbody hrun).settled trivial
      obtain ⟨between, hbetween, hscope, hsame⟩ := hround.exists_frame hframes
      obtain ⟨kept, hkept, hscope', hsame'⟩ := ih iteration hiteration between rest hbetween
      exact ⟨kept, hkept, hscope'.trans hscope,
        (Blocks.same_equivalence Value index).trans hsame hsame'⟩
  | stopped _ _ => exact List.forall_mem_singleton.mpr hhere

end Rounds

/-! ## Repetition -/

/-- One step of a loop that tests its index before every round and counts it on
afterwards, without knowing how many there will be. -/
def indexStep (unroll : Nat) (down : Bool) (index : String) (last : Value) (body : Eval Flow)
    (current : Value × Nat) : Eval (Value × Nat ⊕ Flow) := do
  let more ← Effect.lift ((if down then BinaryOp.ge else BinaryOp.le).apply current.1 last)
  Effect.select more
    (do
      checkUnroll unroll current.2
      let flow ← inBlock do
        declareLocal index current.1
        body
      match flow with
      | .next => do
          let next ← Effect.lift
            ((if down then BinaryOp.sub else BinaryOp.add).apply current.1 (.int 1))
          return .inl (next, countRound current.2)
      | .returned value => return .inr (.returned value))
    (return .inr .next)

/-- The test of an index says whether rounds are left. -/
theorem test_index (down : Bool) (current last : Int) :
    (if down then BinaryOp.ge else BinaryOp.le).apply (.int current) (.int last) =
      .ok (.bool (decide (roundCount down current last ≠ 0))) := by
  cases down
  · have htest : decide (current ≤ last) = decide (roundCount false current last ≠ 0) := by
      simp only [roundCount, decide_eq_decide, Bool.false_eq_true, if_false]
      omega
    rw [← htest]
    rfl
  · have htest : decide (last ≤ current) = decide (roundCount true current last ≠ 0) := by
      simp only [roundCount, decide_eq_decide, if_true]
      omega
    rw [← htest]
    rfl

theorem count_index (down : Bool) (current : Int) :
    (if down then BinaryOp.sub else BinaryOp.add).apply (.int current) (.int 1) =
      .ok (.int (if down then current - 1 else current + 1)) := by
  cases down <;> rfl

theorem indexStep_int (unroll : Nat) (down : Bool) (index : String) (last : Int)
    (body : Eval Flow) (current : Int) (finished : Nat) :
    indexStep unroll down index (.int last) body (.int current, finished) =
      if roundCount down current last = 0 then pure (.inr .next)
      else (do
        checkUnroll unroll finished
        countedRound index current body) >>= fun flow =>
          match flow with
          | .next => pure (.inl (.int (if down then current - 1 else current + 1),
              countRound finished))
          | .returned value => pure (.inr (.returned value)) := by
  rw [indexStep, test_index]
  by_cases hover : roundCount down current last = 0
  · rw [if_pos hover, decide_eq_false (not_not.mpr hover)]
    rfl
  · rw [if_neg hover, decide_eq_true hover, count_index, Effect.bind_assoc]
    rfl

theorem iterate_indexStep (count : Nat) (hcount : roundCount down current last = count)
    {steps : Nat} (hsteps : count < steps) :
    Effect.iterate (indexStep unroll down index (.int last) body) steps (.int current, finished) =
      countedRounds unroll down index body count current finished := by
  induction count generalizing current finished steps with
  | zero =>
      -- the step after the last round only tests the index
      obtain ⟨rest, rfl⟩ := Nat.exists_eq_succ_of_ne_zero (Nat.ne_of_gt hsteps)
      rw [Nat.succ_eq_add_one, Effect.iterate_succ, indexStep_int, if_pos hcount]
      rfl
  | succ count ih =>
      obtain ⟨rest, rfl⟩ := Nat.exists_eq_succ_of_ne_zero (Nat.ne_zero_of_lt hsteps)
      have hmore : ¬roundCount down current last = 0 := by omega
      rw [Nat.succ_eq_add_one, Effect.iterate_succ, indexStep_int, if_neg hmore, countedRounds_succ,
        Effect.bind_assoc]
      congr 1
      funext flow
      cases flow with
      | returned value => rfl
      | next =>
          refine ih ?_ (by omega)
          cases down <;> simp [roundCount] at hcount ⊢ <;> omega

/-- Bounds that are refused are refused by the first test. -/
theorem test_of_loopBounds {first last : Value} {fault : Fault}
    (hbounds : loopBounds down first last = .error fault) :
    (if down then BinaryOp.ge else BinaryOp.le).apply first last = .error fault := by
  have hblame : fault = (if down then BinaryOp.ge else BinaryOp.le).blame first last := by
    cases first <;> cases last <;> cases hbounds <;> rfl
  have hnone : (if down then BinaryOp.ge else BinaryOp.le).onFitting first last = none := by
    cases first <;> cases last <;> cases hbounds <;> cases down <;>
      simp [BinaryOp.onFitting, BinaryOp.onBooleans, BinaryOp.onBits]
  rw [hblame, BinaryOp.apply, hnone]

theorem int_of_loopBounds {first last : Value} {bounds : Int × Int}
    (hbounds : loopBounds down first last = .ok bounds) :
    first = .int bounds.1 ∧ last = .int bounds.2 := by
  cases first <;> cases last <;> cases hbounds
  exact ⟨rfl, rfl⟩

/-- A counted loop is one that tests its index before every round, taken as often as it
takes to end. -/
theorem countedLoop_eq_iterate (unroll : Nat) (down : Bool) (index : String)
    (first last : Value) (body : Eval Flow) :
    ∃ enough, ∀ steps, enough < steps →
      Effect.iterate (indexStep unroll down index last body) steps (first, 0) =
        countedLoop unroll down index first last body := by
  cases hbounds : loopBounds down first last with
  | error fault =>
      refine ⟨0, fun steps hsteps => ?_⟩
      obtain ⟨rest, rfl⟩ := Nat.exists_eq_succ_of_ne_zero (Nat.ne_of_gt hsteps)
      rw [Nat.succ_eq_add_one, Effect.iterate_succ, indexStep, test_of_loopBounds hbounds,
        countedLoop, hbounds]
      rfl
  | ok bounds =>
      obtain ⟨rfl, rfl⟩ := int_of_loopBounds hbounds
      refine ⟨roundCount down bounds.1 bounds.2, fun steps hsteps => ?_⟩
      rw [iterate_indexStep _ rfl hsteps]
      rfl

/-! ## Counted loops -/

/-- What a loop over some indices has done when it ends. -/
structure Counted (unroll : Nat) (index : String) (todo : List Int) (body : Eval Flow)
    (start : State) (visited : List Iteration) (run : Outcome Flow × State) : Prop where
  /-- Each execution of the body begins where the round before it ended. -/
  rounds : Rounds unroll index body todo 0 start visited run
  in_order : visited.map Iteration.index <+: todo
  fresh : ∀ iteration ∈ visited, iteration.Fresh index start
  next_iff : run.1 = .done .next ↔ visited.map Iteration.index = todo ∧
    ∀ iteration ∈ visited, (body iteration.start).1 = .done .next
  stopped : run.1 ≠ .done .next →
    ∃ passed last, visited = passed ++ [last] ∧ (body last.start).1 = run.1 ∧
      ∀ earlier ∈ passed, (body earlier.start).1 = .done .next
  terminates : (∀ iteration ∈ visited, (body iteration.start).1 ≠ .exhausted) →
    run.1 ≠ .exhausted
  /-- In the current frame no outer variable with the name of the index has changed. -/
  outer : ∀ frame rest, start.storage.frames = frame :: rest → run.1.Nonfatal →
    ∃ kept, run.2.storage.frames = kept :: rest ∧ kept.scope = frame.scope ∧
      Blocks.Same index frame.blocks kept.blocks
  /-- After a fault they are where it left them. -/
  buried : Buried (Blocks.Same index) false start.storage run.2.storage

theorem Rounds.counted {visited : List Iteration} {todo : List Int}
    (hbody : Shades index false Q body)
    (hrounds : Rounds unroll index body todo 0 start visited run) :
    Counted unroll index todo body start visited run where
  rounds := hrounds
  in_order := hrounds.indices_prefix
  fresh := hrounds.fresh hbody
  next_iff := hrounds.next_iff
  stopped := hrounds.exists_last
  terminates := by
    intro hvisited hexhausted
    obtain ⟨passed, last, rfl, hlast, _⟩ := hrounds.exists_last (by rw [hexhausted]; nofun)
    exact hvisited last (List.mem_concat_self ..) (hlast.trans hexhausted)
  outer := by
    intro frame rest hframes hnonfatal
    exact ((hrounds.ends hbody).settled hnonfatal).exists_frame hframes
  buried := (hrounds.ends hbody).left

/-- The variable with the name of the index that is seen around a loop, and the global
one. -/
theorem Rounds.outer_value {visited : List Iteration} {todo : List Int}
    (hbody : Shades index true Q body)
    (hrounds : Rounds unroll index body todo finished before visited run)
    (hframes : before.storage.frames = frame :: rest) :
    Named.get? run.2.storage.globals index = Named.get? before.storage.globals index ∧
      (run.1.Nonfatal → (run.2.storage.lookup index).map Prod.fst =
        (before.storage.lookup index).map Prod.fst) := by
  have hend := hrounds.ends hbody
  constructor
  · obtain ⟨_, _, kept, lower, _, _, _, hsame⟩ := hend.left frame rest hframes
    exact hsame.last
  · intro hnonfatal
    obtain ⟨kept, hkept, _, hsame⟩ := (hend.settled hnonfatal frame rest hframes).exists_current
    rw [Storage.lookup_value hkept, Storage.lookup_value hframes, hsame.get?]

end Eval

open Eval

/-- Adds the index of a loop to a sum, and assigns the index. -/
def Stmt.addIndex : Stmt :=
  .block [.assign (.var "sum") (.binary .add (.var "sum") (.var "i")),
    .assign (.var "i") (.literal (.int 9))]

def Stmt.sumTwo : Stmt :=
  .count "i" (.literal (.int 2)) (.literal (.int 1)) true .addIndex

/-- A state with a variable of the same name as the index. -/
def State.beforeSum : State :=
  State.entered.onStorage fun storage => (storage.declare "i" (.int 7)).declare "sum" (.int 0)

end ArchSpec
