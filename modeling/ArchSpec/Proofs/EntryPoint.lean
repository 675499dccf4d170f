import ArchSpec.Proofs.Bound
import ArchSpec.Proofs.CheckedCalls
import ArchSpec.Proofs.DeclarationOrder
import ArchSpec.Proofs.Residue

/-!
# Entry points of accepted programs

One call of a run stands in no text: that of the entry point, which is for a value and
has no arguments.  The static check asks that the entry point is declared and looks no
further, so it accepts programs that can never get beyond this call.  Which ones these
are is said by comparing a run with one that does something else, no matter what, where
the call of the entry point is refused for its number of arguments.
-/

namespace ArchSpec

namespace Eval

/-- The meaning of one call, with `instead` in the place of the fault over the number of
arguments if a run begins with the call. -/
def entryScreenedCall (subprograms : String → Option Subprogram) (instead : Calls)
    (context : Context) : Calls :=
  fun caller name values =>
    match subprograms name with
    | none => Effect.fault (.undefinedIdentifier name)
    | some decl =>
        match decl.body with
        | .primitive primitive => callPrimitive primitive values
        | .stmt body =>
            if decl.args.length = values.length then
              inFrame name decl.args values (body.exec context)
            else if caller = .run then instead caller name values
            else Effect.fault (.badArity name decl.args.length values.length)

/-- Calls that nest at most `bound` deep.  Only the outermost one is screened, as no run
begins with the others. -/
def entryScreenedWithin (subprograms : String → Option Subprogram) (instead : Calls)
    (unroll : Nat) : Nat → Calls
  | 0 => fun _ _ _ => Effect.exhaust
  | bound + 1 =>
      entryScreenedCall subprograms instead ⟨callWithin subprograms unroll bound, bound, unroll⟩

section EntryScreened

variable {subprograms : String → Option Subprogram} {caller : Caller} {name : String}
variable {values : List Value} {decl : Subprogram}

/-- Where the number of arguments is right, or no run begins with the call, it is as
always. -/
theorem entryScreenedWithin_eq
    (hcount : caller = .run → ∀ decl, subprograms name = some decl →
      decl.isPrimitive = false → decl.args.length = values.length)
    (instead : Calls) (unroll bound : Nat) :
    entryScreenedWithin subprograms instead unroll bound caller name values =
      callWithin subprograms unroll bound caller name values := by
  cases bound with
  | zero => rfl
  | succ bound =>
      rw [entryScreenedWithin, callWithin, entryScreenedCall, call]
      cases hdecl : subprograms name with
      | none => rfl
      | some decl =>
          cases hbody : decl.body with
          | primitive primitive => simp only [hbody]
          | stmt body =>
              by_cases hlength : decl.args.length = values.length
              · simp only [hbody, if_pos hlength]
              · have hrun : caller ≠ .run := fun hrun =>
                  hlength (hcount hrun decl hdecl (by rw [Subprogram.isPrimitive, hbody]))
                simp only [hbody, if_neg hlength, if_neg hrun]

variable (hdecl : subprograms name = some decl) (hprimitive : decl.isPrimitive = false)
variable (hcount : decl.args.length ≠ values.length) (unroll bound : Nat)

include hdecl hprimitive hcount

/-- A call with the wrong number of arguments fails at once. -/
theorem callWithin_of_badArity :
    callWithin subprograms unroll (bound + 1) caller name values =
      Effect.fault (.badArity name decl.args.length values.length) := by
  rw [callWithin, call, hdecl]
  cases hbody : decl.body with
  | primitive primitive => simp [Subprogram.isPrimitive, hbody] at hprimitive
  | stmt body => simp only [hbody, if_neg hcount]

theorem entryScreenedWithin_of_badArity (instead : Calls) :
    entryScreenedWithin subprograms instead unroll (bound + 1) .run name values =
      instead .run name values := by
  rw [entryScreenedWithin, entryScreenedCall, hdecl]
  cases hbody : decl.body with
  | primitive primitive => simp [Subprogram.isPrimitive, hbody] at hprimitive
  | stmt body => simp only [hbody, if_neg hcount, if_pos]

end EntryScreened

end Eval

def Calling.entryScreened (instead : Calls) (bound : Nat) : Calling := fun table unroll =>
  Eval.entryScreenedWithin (Named.get? table) instead unroll bound

theorem Call.caller_ne_run (call : Call) : call.caller ≠ .run := by
  rw [caller]
  split <;> simp

/-! ## From the globals to the entry point -/

namespace Session

variable {calls calls' : Calls} {globals : List Global} {before after : State}

/-- The globals are initialised as always. -/
theorem initGlobals_entryScreened (table : Table) (instead : Calls) (unroll bound : Nat)
    (globals : List Global) :
    initGlobals (Calling.entryScreened instead bound table unroll) globals =
      initGlobals (Calling.within bound table unroll) globals := by
  have hR : RunRel Anything Anything (.simulating .nothing Eq) := Simulation.eq.runRel
  apply EvalRel.eq_of_simulating (initGlobals_related hR.toGlobalRel .anything globals ?_)
  intro call _ values _ hvalues
  have hcall : Calling.entryScreened instead bound table unroll call.caller call.callee values =
      Eval.callWithin (Named.get? table) unroll bound call.caller call.callee values :=
    Eval.entryScreenedWithin_eq (fun hrun => absurd hrun call.caller_ne_run) instead unroll bound
  rw [hcall]
  exact Eval.callWithin_related hR.toCallRel.activationRel .anything (.refl _ bound)
    (fun finished => EvalRel.simulating_refl .nothing (Eval.checkUnroll unroll finished)) hvalues

/-- Once its globals are initialised, a run is the call of the entry point. -/
theorem runGlobalsAndMain_of_initialised
    (hinit : Eval.whileInitialising (initGlobals calls globals) before = (.done (), after)) :
    runGlobalsAndMain calls globals before =
      Effect.handling (callMain calls)
        (fun exc => Effect.fault (.uncaughtException exc.print)) after := by
  change Effect.handling (Effect.bind _ _) _ before = _
  simp only [Effect.handling, Effect.bind, hinit]

theorem runGlobalsAndMain_of_fault {cause : Fault}
    (hinit : (Eval.whileInitialising (initGlobals calls globals) before).1 = .done ())
    (hmain : calls .run entryPoint [] = Effect.fault cause) :
    (runGlobalsAndMain calls globals before).1 = .failed cause := by
  rcases hends : Eval.whileInitialising (initGlobals calls globals) before with ⟨outcome, after⟩
  obtain rfl : outcome = .done () := by rw [← hinit, hends]
  rw [runGlobalsAndMain_of_initialised hends, callMain, hmain]
  rfl

/-- How the entry point is called matters only once the globals are initialised. -/
theorem runGlobalsAndMain_congr (hglobals : initGlobals calls globals = initGlobals calls' globals)
    (hmain : (Eval.whileInitialising (initGlobals calls globals) before).1 = .done () →
      calls .run entryPoint [] = calls' .run entryPoint []) :
    runGlobalsAndMain calls globals before = runGlobalsAndMain calls' globals before := by
  rcases hinit : Eval.whileInitialising (initGlobals calls globals) before with ⟨outcome, after⟩
  have hinit' := hglobals ▸ hinit
  cases outcome with
  | done =>
      have hcall : callMain calls = callMain calls' := by
        rw [callMain, callMain, hmain (by rw [hinit])]
      rw [runGlobalsAndMain_of_initialised hinit, runGlobalsAndMain_of_initialised hinit', hcall]
  | thrown | failed | overflowed | exhausted =>
      change Effect.handling (Effect.bind _ _) _ before = Effect.handling (Effect.bind _ _) _ before
      simp only [Effect.handling, Effect.bind, hinit, hinit']

variable {session : Session} {program : Program} {bound bound' : Nat} {decl : Subprogram}

/-- A larger bound initialises what a smaller one does. -/
theorem initialise_of_le (hinit : (session.initialise bound program).1 = .done ())
    (hle : bound ≤ bound') : (session.initialise bound' program).1 = .done () := by
  let subprograms := Named.get? (session.subprograms.addAll program)
  have hR : RunRel Anything Anything (.simulating .exhaustion Eq) := Simulation.eq.runRel
  have hrelated := hR.whileInitialising (initGlobals_related hR.toGlobalRel .anything
    program.globals (Eval.callsRel_of_le subprograms session.unroll hle _))
  have hends : (session.initialise bound program).1 ≠ .exhausted := by
    rw [hinit]
    nofun
  have hsame : session.initialise bound' program = session.initialise bound program :=
    (hrelated session.state session.state rfl).eq_of_ends nofun
      (mt Excuse.covers_exhaustion_iff.mp hends)
  rw [hsame, hinit]

/-- The call of the entry point is not refused for its number of arguments if none has to
be passed, or if it is never made. -/
theorem run_eq_entryScreened
    (hcount : (session.initialise bound program).1 = .done () →
      ∀ decl, Named.get? (session.subprograms.addAll program) entryPoint = some decl →
        decl.isPrimitive = false → decl.args = []) (instead : Calls) :
    session.run bound program = session.runCalling (.entryScreened instead bound) program := by
  let subprograms := session.subprograms.addAll program
  have hglobals := initGlobals_entryScreened subprograms instead session.unroll bound
    program.globals
  have hmain (hinit : (session.initialise bound program).1 = .done ()) :
      Calling.within bound subprograms session.unroll .run entryPoint [] =
        Calling.entryScreened instead bound subprograms session.unroll .run entryPoint [] :=
    (Eval.entryScreenedWithin_eq (fun _ decl hdecl hprimitive =>
      congrArg List.length (hcount hinit decl hdecl hprimitive)) instead session.unroll bound).symm
  have hrun := runGlobalsAndMain_congr hglobals.symm hmain
  rw [run, runCalling, runCalling, hrun]

section BadArity

variable (hdecl : Named.get? (session.subprograms.addAll program) entryPoint = some decl)
variable (hprimitive : decl.isPrimitive = false) (hargs : decl.args ≠ [])
variable (hinit : (session.initialise (bound + 1) program).1 = .done ())

include hdecl hprimitive hargs hinit

/-- If arguments have to be passed and the globals are initialised, the call of the entry
point is refused. -/
theorem run_of_badArity :
    (session.run (bound + 1) program).1 =
      .failed (.badArity entryPoint decl.args.length 0) := by
  have hcount : decl.args.length ≠ ([] : List Value).length := mt List.length_eq_zero_iff.mp hargs
  exact runGlobalsAndMain_of_fault hinit
    (Eval.callWithin_of_badArity hdecl hprimitive hcount session.unroll bound)

theorem entryScreened_of_badArity (cause : Fault) :
    (session.runCalling (.entryScreened (fun _ _ _ => Effect.fault cause) (bound + 1))
      program).1 = .failed cause := by
  have hcount : decl.args.length ≠ ([] : List Value).length := mt List.length_eq_zero_iff.mp hargs
  rw [initialise, callsOf,
    ← initGlobals_entryScreened _ (fun _ _ _ => Effect.fault cause)] at hinit
  exact runGlobalsAndMain_of_fault hinit
    (Eval.entryScreenedWithin_of_badArity hdecl hprimitive hcount session.unroll bound _)

end BadArity

end Session

/-! ## Accepted programs -/

namespace Program

variable {program : Program} {config : Config} {bound : Nat} {decl : Subprogram}

/-- The initialisation of the globals comes to an end, so that the entry point is called. -/
def Initialises (program : Program) (config : Config) (bound : Nat) : Prop :=
  let session := Session.start program.table config.unroll.toNat config.instrument
  (session.initialise bound program).1 = .done ()

/-- No check gets in the way of an accepted program. -/
theorem runCalling_of_accepted (haccepted : program.withPrimitives.Accepted) (config : Config)
    (calling : Calling) :
    program.runCalling config none calling =
      program.withPrimitives.execute config ⟨program.withPrimitives.table, []⟩ calling := by
  obtain ⟨checked, hcheck⟩ := haccepted
  rw [runCalling, (check_of_typeCheck hcheck).2 config.strictness]
  rfl

theorem execute_eq_entryScreened
    (hcount : program.Initialises config bound →
      ∀ decl, Named.get? program.table entryPoint = some decl →
        decl.isPrimitive = false → decl.args = []) (instead : Calls) :
    program.execute config ⟨program.table, []⟩ (.within bound) =
      program.execute config ⟨program.table, []⟩ (.entryScreened instead bound) := by
  have hrun := Session.run_eq_entryScreened (fun hinit decl hdecl =>
    hcount hinit decl (Table.get?_addAll_self program ▸ hdecl)) instead
  rw [Session.run] at hrun
  rw [execute, execute, hrun]

/-- Some other fault in the place of the one over the number of arguments is seen. -/
theorem execute_ne_entryScreened (hdecl : Named.get? program.table entryPoint = some decl)
    (hprimitive : decl.isPrimitive = false) (hargs : decl.args ≠ [])
    (hinit : program.Initialises config (bound + 1)) :
    program.execute config ⟨program.table, []⟩ (.within (bound + 1)) ≠
      program.execute config ⟨program.table, []⟩
        (.entryScreened (fun _ _ _ => Effect.fault .divisionByZero) (bound + 1)) := by
  rw [← Table.get?_addAll_self] at hdecl
  have hrefused := Session.run_of_badArity hdecl hprimitive hargs hinit
  have hinstead := Session.entryScreened_of_badArity hdecl hprimitive hargs hinit .divisionByZero
  intro hsame
  have houtcome := congrArg Report.outcome hsame
  rw [Session.run] at hrefused
  simp only [execute, hrefused, hinstead, Session.complete] at houtcome
  cases houtcome

/-- A run can always begin: the call of its entry point is never refused for its number of
arguments, so that it makes no difference what would be done then, and finds a function. -/
structure UsableEntry (program : Program) : Prop where
  admitted : ∀ (config : Config) (instead : Calls) (bound : Nat),
    program.run config none bound =
      program.runCalling config none (.entryScreened instead bound)
  function : ∃ decl, Named.get? program.withPrimitives.table entryPoint = some decl ∧
    decl.kind = .function

/-- An accepted program has a usable entry point exactly if that is a function and, unless
it is a primitive or is never reached, has no parameters. -/
theorem usableEntry_iff (program : Program) :
    (program.withPrimitives.Accepted → program.UsableEntry) ↔
      (program.withPrimitives.Accepted →
        ∃ decl, Named.get? program.withPrimitives.table entryPoint = some decl ∧
          decl.kind = .function ∧
          (decl.isPrimitive = true ∨ decl.args = [] ∨
            ∀ config bound, ¬program.withPrimitives.Initialises config bound)) := by
  refine imp_congr_right fun haccepted => ⟨fun husable => ?_, fun hentry => ?_⟩
  · obtain ⟨decl, hdecl, hfunction⟩ := husable.function
    refine ⟨decl, hdecl, hfunction, ?_⟩
    by_cases hprimitive : decl.isPrimitive = true
    · exact .inl hprimitive
    by_cases hargs : decl.args = []
    · exact .inr (.inl hargs)
    refine .inr (.inr fun config bound hinit => ?_)
    have hsame := husable.admitted config (fun _ _ _ => Effect.fault .divisionByZero) (bound + 1)
    rw [run, runCalling_of_accepted haccepted, runCalling_of_accepted haccepted] at hsame
    exact execute_ne_entryScreened hdecl (Bool.eq_false_iff.mpr hprimitive) hargs
      (Session.initialise_of_le hinit (Nat.le_succ bound)) hsame
  · obtain ⟨decl, hdecl, hfunction, hargs⟩ := hentry
    refine ⟨fun config instead bound => ?_, decl, hdecl, hfunction⟩
    rw [run, runCalling_of_accepted haccepted, runCalling_of_accepted haccepted]
    apply execute_eq_entryScreened
    intro hinit other hother hprimitive
    obtain rfl : decl = other := Option.some.inj (hdecl.symm.trans hother)
    obtain hbody | hargs | hnever := hargs
    · rw [hprimitive] at hbody
      cases hbody
    · exact hargs
    · exact absurd hinit (hnever config bound)

/-- An entry point with a parameter. -/
def expectant : Program :=
  ⟨[.subprogram (.ofFunction entryPoint [("n", .integer)] .integer (.ret (some (.var "n"))))]⟩

/-- It is accepted, and no run gets beyond the call. -/
theorem expectant_unusable :
    expectant.withPrimitives.Accepted ∧ ¬expectant.UsableEntry := by
  let giveUp : Calls := fun _ _ _ => Effect.exhaust
  refine ⟨⟨_, rfl⟩, fun husable => ?_⟩
  have hrefused : (expectant.run .default none 1).outcome =
      .failed (.badArity entryPoint 1 0) := by rfl
  have hgaveUp : (expectant.runCalling .default none (.entryScreened giveUp 1)).outcome =
      .exhausted := by rfl
  rw [husable.admitted .default giveUp 1, hgaveUp] at hrefused
  cases hrefused

end Program

end ArchSpec
