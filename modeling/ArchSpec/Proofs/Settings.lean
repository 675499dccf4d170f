import ArchSpec.Proofs.Relation.Simulation
import ArchSpec.Proofs.Relation.Transport

/-!
# Settings that only observe

To record accesses and to count the rounds of loops is to watch a run.  Two runs
of a program with different settings go through the same variables and
exceptions in lockstep; what is recorded depends on nothing but whether accesses
are recorded, and the warnings on nothing but the unrolling bound.
-/

namespace ArchSpec

/-- Both computations ended in the same way, and their values are related. -/
inductive Outcome.Alike {α : Type} (R : α → α → Prop) : Outcome α → Outcome α → Prop
  | done {value value' : α} (hvalue : R value value') : Alike R (.done value) (.done value')
  | thrown (exc : Value) : Alike R (.thrown exc) (.thrown exc)
  | failed (fault : Fault) : Alike R (.failed fault) (.failed fault)
  | overflowed : Alike R .overflowed .overflowed
  | exhausted : Alike R .exhausted .exhausted

/-! ## States -/

namespace State

/-- Nothing was recorded or warned of that the settings do not ask for. -/
structure Obeys (config : Config) (recorder : Recorder) (warnings : List String) : Prop where
  recorder : config.instrument = false → recorder = .off
  warnings : config.unroll = 0 → warnings = []

/-- The states of two runs of one program with different settings. -/
structure Alike (config config' : Config) (state state' : State) : Prop where
  storage : state.storage = state'.storage
  handled : state.handled = state'.handled
  printed : state.printed = state'.printed
  recorder : config.instrument = config'.instrument → state.recorder = state'.recorder
  warnings : config.unroll = config'.unroll → state.warnings = state'.warnings
  left : Obeys config state.recorder state.warnings
  right : Obeys config' state'.recorder state'.warnings

variable {config config' : Config}

theorem Obeys.record {recorder : Recorder} {warnings : List String}
    (hobeys : Obeys config recorder warnings) (event : Event) :
    Obeys config (recorder.record event) warnings := by
  constructor
  · intro hinstrument
    rw [hobeys.recorder hinstrument, Recorder.record]
  · exact hobeys.warnings

theorem Obeys.start (config : Config) : Obeys config (.start config.instrument) [] := by
  constructor
  · intro hinstrument
    rw [hinstrument]
    rfl
  · intro _
    rfl

theorem Alike.start (config config' : Config) :
    Alike config config' (start config.instrument) (start config'.instrument) where
  storage := rfl
  handled := rfl
  printed := rfl
  recorder hinstrument := congrArg Recorder.start hinstrument
  warnings _ := rfl
  left := .start config
  right := .start config'

/-- A program cannot tell the settings apart. -/
theorem simulation_alike (config config' : Config) : Simulation (Alike config config') where
  storage halike := halike.storage
  handled halike := halike.handled
  onStorage change halike := { halike with storage := congrArg change halike.storage }
  pushHandled exc halike := { halike with handled := congrArg (exc :: ·) halike.handled }
  popHandled halike := { halike with handled := congrArg List.tail halike.handled }
  note access name scope halike :=
    { halike with
      recorder := fun hinstrument =>
        congrArg (Recorder.record ⟨access, name, scope⟩) (halike.recorder hinstrument)
      left := halike.left.record ⟨access, name, scope⟩
      right := halike.right.record ⟨access, name, scope⟩ }
  print text halike := { halike with printed := congrArg (· ++ text) halike.printed }

/-- The warnings when a round starts. -/
def roundWarnings (unroll finished : Nat) (warnings : List String) : List String :=
  if 0 < unroll ∧ finished = unroll then
    ("loop exceeded the unrolling bound of " ++ toString unroll ++ " iterations") :: warnings
  else warnings

theorem Obeys.roundWarnings {recorder : Recorder} {warnings : List String}
    (hobeys : Obeys config recorder warnings) (finished : Nat) :
    Obeys config recorder (roundWarnings config.unroll.toNat finished warnings) := by
  constructor
  · exact hobeys.recorder
  · intro hunroll
    have hzero : config.unroll.toNat = 0 := by
      rw [hunroll]
      rfl
    rw [State.roundWarnings, hzero, if_neg fun hround => Nat.lt_irrefl 0 hround.1]
    exact hobeys.warnings hunroll

end State

/-- A round changes the warnings and nothing else. -/
theorem Eval.checkUnroll_eq_modify (unroll finished : Nat) :
    checkUnroll unroll finished = Effect.modify fun state =>
      { state with warnings := State.roundWarnings unroll finished state.warnings } := by
  rw [checkUnroll]
  by_cases hround : 0 < unroll ∧ finished = unroll
  · simp only [State.roundWarnings, if_pos hround]
    rfl
  · simp only [State.roundWarnings, if_neg hround]
    rfl

/-- The rounds of a loop are the same under any bound. -/
theorem Eval.checkUnroll_alike (config config' : Config) (finished : Nat) :
    EvalRel.simulating .nothing (State.Alike config config') Unit Anything
      (checkUnroll config.unroll.toNat finished) (checkUnroll config'.unroll.toNat finished) := by
  rw [checkUnroll_eq_modify, checkUnroll_eq_modify]
  apply Simulation.modify
  intro before before' halike
  exact { halike with
    warnings := fun hunroll => by rw [hunroll, halike.warnings hunroll]
    left := halike.left.roundWarnings finished
    right := halike.right.roundWarnings finished }

/-! ## Runs -/

/-- Nothing is in a completion that its settings do not ask for. -/
structure Completion.Obeys (config : Config) (completion : Completion) : Prop where
  trace : config.instrument = false → completion.trace = []
  warningCount : config.unroll = 0 → completion.warningCount = some 0

/-- The completions of two runs of one program with different settings. -/
structure Completion.Alike (config config' : Config) (completion completion' : Completion) :
    Prop where
  exitCode : completion.exitCode = completion'.exitCode
  trace : config.instrument = config'.instrument → completion.trace = completion'.trace
  warningCount : config.unroll = config'.unroll →
    completion.warningCount = completion'.warningCount
  left : Obeys config completion
  right : Obeys config' completion'

/-- What two runs of one program with different settings show. -/
structure Report.Alike (config config' : Config) (report report' : Report) : Prop where
  outcome : report.outcome.Alike (Completion.Alike config config') report'.outcome
  printed : report.printed = report'.printed

namespace Session

variable {config config' : Config}

theorem obeys_complete {session : Session} {exitCode : Int}
    (hobeys : State.Obeys config session.state.recorder session.state.warnings) :
    Completion.Obeys config ⟨exitCode, session.trace, session.warningCount⟩ where
  trace hinstrument := by
    change session.state.recorder.contents = []
    rw [hobeys.recorder hinstrument, Recorder.contents]
  warningCount hunroll := by
    change session.warningCount = some 0
    rw [warningCount, hobeys.warnings hunroll]
    rfl

theorem complete_alike {session session' : Session} (outcome : Outcome Value)
    (halike : State.Alike config config' session.state session'.state) :
    (session.complete outcome).Alike (Completion.Alike config config')
      (session'.complete outcome) := by
  cases outcome with
  | done value =>
      rw [complete, complete]
      cases value.exitCode with
      | error fault => exact .failed fault
      | ok exitCode =>
          refine .done ⟨rfl, fun hinstrument => ?_, fun hunroll => ?_,
            obeys_complete halike.left, obeys_complete halike.right⟩
          · exact congrArg Recorder.contents (halike.recorder hinstrument)
          · change session.warningCount = session'.warningCount
            rw [warningCount, warningCount, halike.warnings hunroll]
  | thrown exc => exact .thrown exc
  | failed fault => exact .failed fault
  | overflowed => exact .overflowed
  | exhausted => exact .exhausted

end Session

namespace Program

/-- Checked subprograms run alike under all settings. -/
theorem execute_alike (program : Program) (config config' : Config) (checked : Checked)
    (bound : Nat) :
    Report.Alike config config' (program.execute config checked (.within bound))
      (program.execute config' checked (.within bound)) := by
  have hrun := Session.runWithin_related (State.simulation_alike config config').runRel .anything
    (Named.get? (checked.subprograms.addAll program)) program.globals (.refl _ bound)
    (Eval.checkUnroll_alike config config')
  obtain ⟨outcome, after, after', hleft, hright, halike⟩ :=
    (hrun _ _ (State.Alike.start config config')).exists_eq
  simp only [execute, Session.runCalling, Session.start, Calling.within]
  rw [hleft, hright]
  exact ⟨Session.complete_alike outcome halike, halike.printed⟩

/-- A loop that counts to three. -/
def counting : Program :=
  ⟨[.subprogram (.ofFunction entryPoint [] .integer (.block
    [.declare "n" none (some (.literal (.int 0))),
      .loop (.binary .lt (.var "n") (.literal (.int 3)))
        (.assign (.var "n") (.binary .add (.var "n") (.literal (.int 1)))),
      .ret (some (.var "n"))]))]⟩

end Program

end ArchSpec
