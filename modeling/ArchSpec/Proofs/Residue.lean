import ArchSpec.Proofs.StackDiscipline

/-!
# What a fault leaves behind

A session goes on after a run that failed.  A fault skips everything that would
have left the activations, handlers and initialisers that were entered before
it, and the next run does not begin by clearing them.  So a run leaves a clean
state exactly if it was not interrupted: no fault came up while globals were
initialised or inside the body of the entry point.
-/

namespace ArchSpec

/-! ## Idle and clean states -/

namespace State

/-- No activation and no handler is running. -/
structure Idle (state : State) : Prop where
  frames : state.storage.frames = []
  handled : state.handled = []

/-- Nothing of a run is left: no activation, no handler, no initialiser. -/
structure Clean (state : State) : Prop extends Idle state where
  initialising : state.storage.initialising = false

variable {before after : State}

theorem idle_iff_depth {state : State} :
    state.Idle ↔ state.storage.depth = 0 ∧ state.handled.length = 0 := by
  rw [Storage.depth, List.length_eq_zero_iff, List.length_eq_zero_iff]
  exact ⟨fun hidle => ⟨hidle.frames, hidle.handled⟩, fun hempty => ⟨hempty.1, hempty.2⟩⟩

theorem SameStack.idle_iff (hsame : SameStack before after) : after.Idle ↔ before.Idle := by
  rw [idle_iff_depth, idle_iff_depth, hsame.frames.depth_eq, hsame.handled]

theorem SameStack.clean_iff (hsame : SameStack before after) : after.Clean ↔ before.Clean := by
  have hidle := hsame.idle_iff
  have hinitialising := hsame.initialising
  constructor
  · intro hclean
    exact ⟨hidle.mp hclean.toIdle, hinitialising ▸ hclean.initialising⟩
  · intro hclean
    exact ⟨hidle.mpr hclean.toIdle, hinitialising.trans hclean.initialising⟩

end State

namespace Eval

open State

/-! ## Faults inside a call -/

/-- A call of so many arguments runs a statement in an activation of its own. -/
def Activates (subprograms : String → Option Subprogram) (name : String) (count : Nat) : Prop :=
  ∃ decl, subprograms name = some decl ∧ decl.isPrimitive = false ∧ decl.args.length = count

variable {subprograms : String → Option Subprogram} {unroll bound : Nat} {caller : Caller}
variable {name : String} {values : List Value} {before after : State}

/-- An activation that ends with a fault stays. -/
theorem depth_lt_of_inActivation {α : Type} {Q : α → Prop} {body : Eval α} {cause : Fault}
    (hbody : Disciplined Q body) (hrun : inActivation name body before = (.failed cause, after)) :
    before.storage.depth < after.storage.depth := by
  by_cases hfull : before.storage.Full name
  · rw [inActivation_of_full hfull] at hrun
    nomatch hrun
  · rw [inActivation_of_not_full hfull] at hrun
    have hend := hbody (before.onStorage (·.pushFrame name))
    rw [Effect.of_within_failed hrun] at hend
    exact Nat.lt_of_succ_le hend.residue.depth

theorem inActivation_of_inFrame {args : List (String × Ty)} {body : Eval Flow} {cause : Fault}
    (hrun : inFrame name args values body before = (.failed cause, after)) :
    inActivation name (do bindParameters args values; body) before = (.failed cause, after) := by
  rw [inFrame] at hrun
  change Effect.bind _ _ before = _ at hrun
  rw [Effect.bind] at hrun
  rcases hinside : inActivation name (do bindParameters args values; body) before with
    ⟨outcome, state⟩
  rw [hinside] at hrun
  cases outcome with
  | done | thrown | overflowed | exhausted => cases hrun
  | failed other =>
      cases hrun
      rfl

/-- A call that ends with a fault in its activation leaves it behind. -/
theorem depth_lt_of_failed {cause : Fault} (hactivates : Activates subprograms name values.length)
    (hrun : callWithin subprograms unroll bound caller name values before =
      (.failed cause, after)) :
    before.storage.depth < after.storage.depth := by
  cases bound with
  | zero => nomatch hrun
  | succ bound =>
      obtain ⟨decl, hdecl, hprimitive, hlength⟩ := hactivates
      rw [callWithin, call, hdecl] at hrun
      rw [Subprogram.isPrimitive] at hprimitive
      cases hbody : decl.body with
      | primitive primitive => simp [hbody] at hprimitive
      | stmt body =>
          simp only [hbody, if_pos hlength] at hrun
          have hinside := disciplined_body subprograms unroll bound decl.args values body
          exact depth_lt_of_inActivation hinside (inActivation_of_inFrame hrun)

theorem sameStack_callPrimitive (before : State) :
    before.SameStack (callPrimitive name values before).2 := by
  rw [callPrimitive]
  cases Primitive.ofName? name with
  | none => exact .refl before
  | some primitive =>
      simp only
      cases primitive.call values with
      | error cause => exact .refl before
      | ok reply => exact ⟨.refl before.storage, rfl, rfl⟩

/-- A call that enters no activation leaves the stacks alone. -/
theorem sameStack_of_not_activates (hactivates : ¬Activates subprograms name values.length)
    (before : State) :
    before.SameStack (callWithin subprograms unroll bound caller name values before).2 := by
  cases bound with
  | zero => exact .refl before
  | succ bound =>
      rw [callWithin, call]
      cases hdecl : subprograms name with
      | none => exact .refl before
      | some decl =>
          cases hbody : decl.body with
          | primitive primitive =>
              simp only [hbody]
              exact sameStack_callPrimitive before
          | stmt body =>
              have hlength : decl.args.length ≠ values.length := by
                intro hlength
                apply hactivates
                refine ⟨decl, hdecl, ?_, hlength⟩
                rw [Subprogram.isPrimitive, hbody]
              simp only [hbody, if_neg hlength]
              exact .refl before

/-! ## Faults inside an initialiser -/

theorem disciplined_initGlobals (globals : List Global) :
    Disciplined Anything
      (Session.initGlobals (callWithin subprograms unroll bound) globals) :=
  have hP : GlobalRel Anything Anything (.single fun _ Q body => Disciplined Q body) :=
    { disciplined_callRel with
      declareGlobal := fun _ => .modify fun _ => ⟨.of_frames_eq rfl, rfl, rfl⟩ }
  Session.initGlobals_related hP .anything globals
    (callsRel_single disciplined_callRel .anything (.checkUnroll unroll) subprograms bound _)

/-- An initialisation that ends without a fault leaves a clean state if nothing
was running before. -/
theorem clean_iff_of_initialised {body : Eval Unit} {outcome : Outcome Unit}
    (hbody : Disciplined Anything body)
    (hrun : whileInitialising body before = (outcome, after)) (hnonfatal : outcome.Nonfatal) :
    after.Clean ↔ before.Idle := by
  obtain ⟨state, hinside, rfl⟩ := Effect.of_within_nonfatal hrun hnonfatal
  have hend := hbody (before.onStorage (·.setInitialising true))
  rw [hinside] at hend
  have hidle := (hend.stack hnonfatal).idle_iff
  constructor
  · intro hclean
    have hstate : state.Idle := ⟨hclean.frames, hclean.handled⟩
    exact ⟨(hidle.mp hstate).frames, (hidle.mp hstate).handled⟩
  · intro hbefore
    have hstate := hidle.mpr ⟨hbefore.frames, hbefore.handled⟩
    exact ⟨⟨hstate.frames, hstate.handled⟩, rfl⟩

/-- After a fault in an initialiser it still counts as running. -/
theorem initialising_of_failed {body : Eval Unit} {cause : Fault}
    (hbody : Disciplined Anything body)
    (hrun : whileInitialising body before = (.failed cause, after)) :
    after.storage.initialising = true := by
  have hend := hbody (before.onStorage (·.setInitialising true))
  rw [Effect.of_within_failed hrun] at hend
  exact hend.residue.initialising

end Eval

/-! ## Runs -/

namespace Session

/-- What calls mean in the next run of a session. -/
def callsOf (session : Session) (bound : Nat) (program : Program) : Calls :=
  Calling.within bound (session.subprograms.addAll program) session.unroll

/-- The first half of the next run, which initialises the globals. -/
def initialise (session : Session) (bound : Nat) (program : Program) : Outcome Unit × State :=
  Eval.whileInitialising (initGlobals (session.callsOf bound program) program.globals)
    session.state

/-- The next run ends with a fault while globals are initialised, or inside the
body of the entry point. -/
def Interrupted (session : Session) (bound : Nat) (program : Program) : Prop :=
  match session.initialise bound program with
  | (.failed _, _) => True
  | (.done _, between) =>
      Eval.Activates (Named.get? (session.subprograms.addAll program)) entryPoint 0 ∧
        ∃ cause after, session.callsOf bound program .run entryPoint [] between =
          (.failed cause, after)
  | _ => False

theorem callMain_endsAt (calls : Calls) (before : State) :
    Effect.EndsAt (calls .run entryPoint [] before) (callMain calls before) := by
  rw [callMain]
  by_cases hvalue : ∃ results, (calls .run entryPoint [] before).1 = .done results
  · obtain ⟨results, hresults⟩ := hvalue
    rcases hcall : calls .run entryPoint [] before with ⟨outcome, after⟩
    rw [hcall] at hresults
    change outcome = .done results at hresults
    subst hresults
    rw [Effect.bind_of_done hcall]
    rcases results with _ | ⟨value, _ | ⟨next, rest⟩⟩
    all_goals exact ⟨rfl, fun _ => trivial⟩
  · exact Effect.bind_endsAt _ fun results hresults => hvalue ⟨results, hresults⟩

variable {session : Session} {bound : Nat} {program : Program} {between : State}

/-- An exception that nobody handles is reported where the run ends. -/
theorem run_endsAt (session : Session) (bound : Nat) (program : Program) :
    Effect.EndsAt
      ((do
        Eval.whileInitialising (initGlobals (session.callsOf bound program) program.globals)
        callMain (session.callsOf bound program) : Eval Value) session.state)
      ((session.run bound program).1, (session.run bound program).2.state) :=
  Effect.handling_endsAt _ (fun exc => .uncaughtException exc.print) session.state

theorem run_of_initialised (hinit : session.initialise bound program = (.done (), between)) :
    Effect.EndsAt (session.callsOf bound program .run entryPoint [] between)
      ((session.run bound program).1, (session.run bound program).2.state) := by
  have hrun := session.run_endsAt bound program
  rw [Effect.bind_of_done hinit] at hrun
  exact (callMain_endsAt (session.callsOf bound program) between).trans hrun

theorem run_of_not_initialised {outcome : Outcome Unit}
    (hinit : session.initialise bound program = (outcome, between))
    (hvalue : ∀ value, outcome ≠ .done value) :
    Effect.EndsAt (outcome, between)
      ((session.run bound program).1, (session.run bound program).2.state) := by
  rw [← hinit]
  have hskip : ∀ value, (session.initialise bound program).1 ≠ .done value := by
    rw [hinit]
    exact hvalue
  exact (Effect.bind_endsAt (fun _ => callMain (session.callsOf bound program)) hskip).trans
    (session.run_endsAt bound program)

/-- The call of the entry point leaves a clean state clean, unless it ends with a
fault in its activation. -/
theorem clean_main_iff
    (hends : (session.callsOf bound program .run entryPoint [] between).1.Returns) :
    (session.callsOf bound program .run entryPoint [] between).2.Clean ↔
      between.Clean ∧
        ¬(Eval.Activates (Named.get? (session.subprograms.addAll program)) entryPoint 0 ∧
          ∃ cause after, session.callsOf bound program .run entryPoint [] between =
            (.failed cause, after)) := by
  by_cases hactivates :
      Eval.Activates (Named.get? (session.subprograms.addAll program)) entryPoint 0
  · have hcall : Eval.Disciplined (Value.Each Anything)
        (session.callsOf bound program .run entryPoint []) :=
      Eval.callWithin_single Eval.disciplined_callRel .anything (.checkUnroll session.unroll)
        _ bound fun _ _ => trivial
    have hend := hcall between
    rcases hrun : session.callsOf bound program .run entryPoint [] between with ⟨outcome, after⟩
    rw [hrun] at hend hends
    cases outcome with
    | done | thrown =>
        have hsame := (hend.stack trivial).clean_iff
        simp [hsame]
    | failed cause =>
        -- The frame of the entry point is still there.
        have hdepth := Eval.depth_lt_of_failed hactivates hrun
        constructor
        · intro hclean
          have hzero : after.storage.depth = 0 := (State.idle_iff_depth.mp hclean.toIdle).1
          omega
        · intro hclean
          exact absurd ⟨hactivates, cause, after, rfl⟩ hclean.2
    | overflowed | exhausted => exact hends.elim
  · have hsame : between.SameStack (session.callsOf bound program .run entryPoint [] between).2 :=
      Eval.sameStack_of_not_activates hactivates between
    rw [hsame.clean_iff]
    simp [hactivates]

/-- A run that ends leaves a clean state exactly if it began in an idle one and
was not interrupted. -/
theorem clean_run_iff (session : Session) (bound : Nat) (program : Program)
    (hends : (session.run bound program).1.Returns) :
    (session.run bound program).2.state.Clean ↔
      session.state.Idle ∧ ¬session.Interrupted bound program := by
  have hbody : Eval.Disciplined Anything
      (initGlobals (session.callsOf bound program) program.globals) :=
    Eval.disciplined_initGlobals program.globals
  rw [Interrupted]
  rcases hinit : session.initialise bound program with ⟨outcome, between⟩
  cases outcome with
  | done value =>
      have hrun := run_of_initialised hinit
      have hstate : (session.run bound program).2.state = _ := hrun.state
      have hclean := Eval.clean_iff_of_initialised hbody hinit trivial
      rw [hstate, clean_main_iff (hrun.returns hends), hclean]
  | thrown exc =>
      have hstate : (session.run bound program).2.state = between :=
        (run_of_not_initialised hinit nofun).state
      have hclean := Eval.clean_iff_of_initialised hbody hinit trivial
      rw [hstate, hclean]
      exact ⟨fun hidle => ⟨hidle, id⟩, fun hidle => hidle.1⟩
  | failed cause =>
      -- Whatever else is left, the initialisers still count as running.
      have hstate : (session.run bound program).2.state = between :=
        (run_of_not_initialised hinit nofun).state
      have hinitialising := Eval.initialising_of_failed hbody hinit
      rw [hstate]
      constructor
      · intro hclean
        rw [hclean.initialising] at hinitialising
        nomatch hinitialising
      · intro hidle
        exact absurd trivial hidle.2
  | overflowed | exhausted => exact ((run_of_not_initialised hinit nofun).returns hends).elim

/-- A run that yields a value was not interrupted. -/
theorem not_interrupted_of_done {value : Value}
    (hrun : (session.run bound program).1 = .done value) :
    ¬session.Interrupted bound program := by
  have hbody :
      ((do
        Eval.whileInitialising (initGlobals (session.callsOf bound program) program.globals)
        callMain (session.callsOf bound program) : Eval Value) session.state).1 = .done value :=
    Effect.eq_done_of_handling (fun exc => .uncaughtException exc.print) hrun
  obtain ⟨_, hinit, hmain⟩ := Effect.bind_eq_done_iff.mp hbody
  obtain ⟨results, hcall, _⟩ := Effect.bind_eq_done_iff.mp hmain
  rw [Interrupted]
  rcases hinitialise : session.initialise bound program with ⟨outcome, between⟩
  change (session.initialise bound program).1 = _ at hinit
  change (session.callsOf bound program .run entryPoint []
    (session.initialise bound program).2).1 = _ at hcall
  rw [hinitialise] at hinit hcall
  change outcome = _ at hinit
  subst hinit
  rintro ⟨_, cause, after, hfailed⟩
  rw [hfailed] at hcall
  nomatch hcall

/-- From an idle state a run that yields a value leaves a clean one. -/
theorem clean_of_done {value : Value} {after : Session} (hidle : session.state.Idle)
    (hrun : session.run bound program = (.done value, after)) : after.state.Clean := by
  have hclean := session.clean_run_iff bound program (by rw [hrun]; trivial)
  rw [hrun] at hclean
  exact hclean.mpr ⟨hidle, not_interrupted_of_done (by rw [hrun])⟩

/-! ## Sequences of runs -/

/-- A property of every run of a sequence that ends; after one that does not,
there is no other. -/
def EachRun (P : Session → Program → Session → Prop) (bound : Nat) (session : Session) :
    List Program → Prop
  | [] => True
  | program :: rest =>
      match session.run bound program with
      | (.overflowed, _) | (.exhausted, _) => True
      | (_, after) => P session program after ∧ EachRun P bound after rest

theorem eachRun_clean_iff_of_idle (bound : Nat) (session : Session) (programs : List Program)
    (hidle : session.state.Idle) :
    session.EachRun (fun _ _ after => after.state.Clean) bound programs ↔
      session.EachRun (fun before program _ => ¬before.Interrupted bound program) bound
        programs := by
  -- A clean state is idle, which is all that the next run needs.
  induction programs generalizing session with
  | nil => exact Iff.rfl
  | cons program rest ih =>
      rw [EachRun, EachRun]
      have hrun := session.clean_run_iff bound program
      rcases hresult : session.run bound program with ⟨outcome, after⟩
      rw [hresult] at hrun
      have hclean : outcome.Returns →
          (after.state.Clean ↔ ¬session.Interrupted bound program) := by
        intro hends
        rw [hrun hends]
        exact ⟨fun hboth => hboth.2, fun hcalm => ⟨hidle, hcalm⟩⟩
      cases outcome with
      | overflowed | exhausted => exact Iff.rfl
      | done | thrown | failed =>
          constructor
          · intro hall
            exact ⟨(hclean trivial).mp hall.1, (ih after hall.1.toIdle).mp hall.2⟩
          · intro hall
            have hafter := (hclean trivial).mpr hall.1
            exact ⟨hafter, (ih after hafter.toIdle).mpr hall.2⟩

/-- All runs of a session leave clean states exactly if none is interrupted. -/
theorem eachRun_clean_iff (subprograms : Table) (unroll : Nat) (recording : Bool) (bound : Nat)
    (programs : List Program) :
    (start subprograms unroll recording).EachRun (fun _ _ after => after.state.Clean) bound
        programs ↔
      (start subprograms unroll recording).EachRun
        (fun before program _ => ¬before.Interrupted bound program) bound programs :=
  eachRun_clean_iff_of_idle bound _ programs ⟨rfl, rfl⟩

def failing : Program :=
  ⟨[.subprogram (.ofFunction entryPoint [] .integer
    (.attempt (.raise (some (.exception "Stop" [])))
      [.mk none "Stop" (.assert (.literal (.bool false)))] none))]⟩

def rethrowing : Program :=
  ⟨[.subprogram (.ofFunction entryPoint [] .integer (.raise none))]⟩

/-- The first program fails while it handles an exception, and the second one,
which handles none, throws that exception again. -/
theorem not_eachRun_clean :
    ¬(start failing.table 0 false).EachRun (fun _ _ after => after.state.Clean) 2
        [failing, rethrowing] ∧
      ((start failing.table 0 false).runAll 2 [failing, rethrowing]).1 =
        [.failed .assertionFailed, .failed (.uncaughtException "Stop \x7b  \x7d")] := by
  constructor
  · intro hclean
    nomatch hclean.1.handled
  · rfl

end Session

end ArchSpec
