import ArchSpec.Proofs.Relation.Simulation
import ArchSpec.Proofs.Relation.Transport
import ArchSpec.Proofs.Tables

/-!
# Calls of checked programs

The static check looks at the calls in the text of a program; a run makes calls
at any depth and from anywhere.  After a check without findings, every call that
a run makes finds a subprogram that takes so many arguments and, for an
expression, is no procedure.  To say so, a run is compared with one that tests
each of its calls and does something else, no matter what, where the test
fails.  Both are the same, so no run ever gets there.
-/

namespace ArchSpec

/-! ## Admitted calls -/

/-- A subprogram can be called with so many arguments, for a value if an
expression calls it.  A primitive checks its arguments itself. -/
structure Subprogram.Admits (decl : Subprogram) (caller : Caller) (count : Nat) : Prop where
  count : decl.isPrimitive = false → decl.args.length = count
  value : caller = .expression → decl.kind ≠ .procedure

/-- A call finds a subprogram that admits it.  Nothing is asked of the call with
which a run begins. -/
def Admits (subprograms : String → Option Subprogram) (caller : Caller) (name : String)
    (count : Nat) : Prop :=
  caller = .run ∨ ∃ decl, subprograms name = some decl ∧ decl.Admits caller count

/-- Every call in the body of a subprogram is admitted. -/
def Consistent (subprograms : String → Option Subprogram) : Prop :=
  ∀ (name : String) (decl : Subprogram) (body : Stmt), subprograms name = some decl →
    decl.body = .stmt body →
    ∀ call ∈ body.calls, Admits subprograms call.caller call.callee call.argCount

theorem Call.forValue_of_caller {call : Call} (hcaller : call.caller = .expression) :
    call.forValue = true := by
  by_cases hvalue : call.forValue = true
  · exact hvalue
  · rw [caller, if_neg hvalue] at hcaller
    nomatch hcaller

/-- A call without a finding is admitted. -/
theorem Table.admits_of_checkCall {table : Table} {site : CallSite}
    (hcheck : table.checkCall site = none) :
    Admits (Named.get? table) site.call.caller site.call.callee site.call.argCount := by
  rw [checkCall] at hcheck
  cases hdecl : Named.get? table site.call.callee with
  | none => simp [hdecl] at hcheck
  | some decl =>
      simp only [hdecl] at hcheck
      refine .inr ⟨decl, hdecl, fun hbody => ?_, fun hcaller hprocedure => ?_⟩
      · by_cases hvalue : site.call.forValue = true ∧ decl.kind = .procedure
        · simp [hvalue] at hcheck
        · simpa [hvalue, hbody] using hcheck
      · simp [Call.forValue_of_caller hcaller, hprocedure] at hcheck

/-! ## Screened runs -/

namespace Eval

/-- One call, with `instead` in the place of each fault that a call raises by
itself, and of a procedure that is called for a value.  The call with which a
run begins is as always. -/
def screenedCall (subprograms : String → Option Subprogram) (instead : Calls)
    (context : Context) : Calls :=
  fun caller name values =>
    if caller = .run then call subprograms context caller name values
    else
      match subprograms name with
      | none => instead caller name values
      | some decl =>
          if caller = .expression ∧ decl.kind = .procedure then instead caller name values
          else
            match decl.body with
            | .primitive primitive => callPrimitive primitive values
            | .stmt body =>
                if decl.args.length = values.length then
                  inFrame name decl.args values (body.exec context)
                else instead caller name values

/-- Screened calls that nest at most `bound` deep. -/
def screenedWithin (subprograms : String → Option Subprogram) (instead : Calls)
    (unroll : Nat) : Nat → Calls
  | 0 => fun _ _ _ => Effect.exhaust
  | bound + 1 =>
      screenedCall subprograms instead
        ⟨screenedWithin subprograms instead unroll bound, bound, unroll⟩

section Screened

variable {subprograms : String → Option Subprogram} {caller : Caller} {name : String}
variable {values : List Value}

theorem screenedCall_of_admits (hadmits : Admits subprograms caller name values.length)
    (instead : Calls) (context : Context) :
    screenedCall subprograms instead context caller name values =
      call subprograms context caller name values := by
  rw [screenedCall]
  by_cases hrun : caller = .run
  · rw [if_pos hrun]
  · obtain ⟨decl, hdecl, hadmits⟩ := hadmits.resolve_left hrun
    have hvalue : ¬(caller = .expression ∧ decl.kind = .procedure) :=
      fun hprocedure => hadmits.value hprocedure.1 hprocedure.2
    rw [if_neg hrun, call, hdecl]
    simp only [if_neg hvalue]
    cases hbody : decl.body with
    | primitive primitive => rfl
    | stmt body =>
        have hlength : decl.args.length = values.length := by
          apply hadmits.count
          rw [Subprogram.isPrimitive, hbody]
        simp only [if_pos hlength]

variable (hsubprograms : Consistent subprograms) (instead : Calls) (unroll bound : Nat)

include hsubprograms

/-- An admitted call makes only admitted ones. -/
theorem callWithin_screened (hadmits : Admits subprograms caller name values.length) :
    EvalRel.simulating .nothing Eq (List Value) (Value.Each Anything)
      (callWithin subprograms unroll bound caller name values)
      (screenedWithin subprograms instead unroll bound caller name values) := by
  -- What is admitted carries over from a call to the calls in the body it finds.
  induction bound generalizing caller name values with
  | zero => exact Simulation.eq.runRel.exhaust
  | succ bound ih =>
      have hloop : LoopRel (.simulating .nothing Eq)
          ⟨callWithin subprograms unroll bound, bound, unroll⟩
          ⟨screenedWithin subprograms instead unroll bound, bound, unroll⟩ :=
        ⟨.refl _ bound, fun finished =>
          EvalRel.simulating_refl .nothing (checkUnroll unroll finished)⟩
      rw [callWithin, screenedWithin, screenedCall_of_admits hadmits]
      apply call_related Simulation.eq.runRel.toCallRel.activationRel .anything fun _ _ => trivial
      intro decl body hdecl hbody
      apply Stmt.exec_related Simulation.eq.runRel.toStmtRel.stepRel .anything hloop body
      intro call hcall arguments hlength _
      have hcalled := hsubprograms name decl body hdecl hbody call hcall
      rw [← hlength] at hcalled
      exact ih hcalled

/-- The calls of a text are the same in a screened run if all are admitted. -/
theorem callsRel_screened {sites : List Call}
    (hsites : ∀ call ∈ sites, Admits subprograms call.caller call.callee call.argCount) :
    CallsRel Anything (.simulating .nothing Eq) (callWithin subprograms unroll bound)
      (screenedWithin subprograms instead unroll bound) sites := by
  intro call hcall values hlength _
  have hadmits := hsites call hcall
  rw [← hlength] at hadmits
  exact callWithin_screened hsubprograms instead unroll bound hadmits

end Screened

end Eval

def Calling.screened (instead : Calls) (bound : Nat) : Calling := fun table unroll =>
  Eval.screenedWithin (Named.get? table) instead unroll bound

namespace Program

variable {program : Program} {checked : Checked}

/-- The strictest check passes only without findings, and then any other one
comes to the same. -/
theorem check_of_typeCheck (hcheck : program.check .typeCheck = .ok checked) :
    program.findings = [] ∧ ∀ strictness, program.check strictness = .ok ⟨program.table, []⟩ := by
  have hfindings : program.findings = [] := by
    rw [check] at hcheck
    cases hfound : program.findings with
    | nil => rfl
    | cons finding rest => simp [hfound] at hcheck
  constructor
  · exact hfindings
  · intro strictness
    cases strictness with
    | silence => rfl
    | warn | typeCheck => rw [check, hfindings]

theorem mem_of_mem_subprograms {decl : Subprogram} (hdecl : decl ∈ program.subprograms) :
    Decl.subprogram decl ∈ program.decls := by
  obtain ⟨other, hother, hsome⟩ := List.mem_filterMap.mp hdecl
  cases other with
  | subprogram declared =>
      cases hsome
      exact hother
  | global _ => nomatch hsome

theorem mem_of_mem_globals {decl : Global} (hdecl : decl ∈ program.globals) :
    Decl.global decl ∈ program.decls := by
  obtain ⟨other, hother, hsome⟩ := List.mem_filterMap.mp hdecl
  cases other with
  | global declared =>
      cases hsome
      exact hother
  | subprogram _ => nomatch hsome

/-- Without findings every call in the text is admitted. -/
theorem admits_of_findings (hfindings : program.findings = []) {site : CallSite}
    (hsite : site ∈ program.callSites) :
    Admits (Named.get? program.table) site.call.caller site.call.callee site.call.argCount := by
  have hcalls : program.callSites.filterMap program.table.checkCall = [] :=
    (List.append_eq_nil_iff.mp hfindings).2
  exact Table.admits_of_checkCall (List.filterMap_eq_nil_iff.mp hcalls site hsite)

theorem consistent_of_findings (hfindings : program.findings = []) :
    Consistent (Named.get? program.table) := by
  intro name decl body hdecl hbody call hcall
  have hmem := mem_of_mem_subprograms (Table.mem_of_get? hdecl)
  have hcalls : call ∈ decl.calls := by
    rw [Subprogram.calls, hbody]
    exact List.mem_append_left _ hcall
  exact admits_of_findings hfindings
    (List.mem_flatMap.mpr ⟨_, hmem, List.mem_map.mpr ⟨call, hcalls, rfl⟩⟩)

theorem global_admits_of_findings (hfindings : program.findings = []) :
    ∀ call ∈ program.globals.flatMap Global.calls,
      Admits (Named.get? program.table) call.caller call.callee call.argCount := by
  intro call hcall
  obtain ⟨decl, hdecl, hcalls⟩ := List.mem_flatMap.mp hcall
  have hmem := mem_of_mem_globals hdecl
  exact admits_of_findings hfindings
    (List.mem_flatMap.mpr ⟨_, hmem, List.mem_map.mpr ⟨call, hcalls, rfl⟩⟩)

theorem execute_screened (hfindings : program.findings = []) (config : Config) (instead : Calls)
    (bound : Nat) :
    program.execute config ⟨program.table, []⟩ (.within bound) =
      program.execute config ⟨program.table, []⟩ (.screened instead bound) := by
  have hbodies := consistent_of_findings hfindings
  have hglobals := global_admits_of_findings hfindings
  have hrun := EvalRel.eq_of_simulating (Session.runGlobalsAndMain_related
    Simulation.eq.runRel .anything
    (Eval.callsRel_screened hbodies instead config.unroll.toNat bound hglobals)
    (Eval.callWithin_screened hbodies instead config.unroll.toNat bound (.inl rfl)))
  simp only [execute, Session.runCalling, Session.start, Calling.within, Calling.screened,
    Table.get?_addAll_self, hrun]

/-- If a program passes the strictest check with the primitives declared before
it, its runs are those whose calls are screened. -/
theorem run_eq_screened (hcheck : program.withPrimitives.check .typeCheck = .ok checked)
    (config : Config) (instead : Calls) (bound : Nat) :
    program.run config none bound = program.runCalling config none (.screened instead bound) := by
  obtain ⟨hfindings, hpass⟩ := check_of_typeCheck hcheck
  simp only [run, runCalling, hpass, execute_screened hfindings config instead bound]

/-- A global that is initialised by a call, and an entry point that calls a
procedure, itself and a primitive. -/
def calling : Program :=
  ⟨[.subprogram (.ofFunction "next" [("n", .integer)] .integer
      (.ret (some (.binary .add (.var "n") (.literal (.int 1)))))),
    .global ⟨"count", none, some (.call "next" [.literal (.int 4)])⟩,
    .subprogram (.ofProcedure "advance" []
      (.assign (.var "count") (.call "next" [.var "count"]))),
    .subprogram (.ofFunction entryPoint [] .integer (.block
      [.branch (.binary .lt (.var "count") (.literal (.int 7)))
        (.block [.call "advance" [], .ret (some (.call entryPoint []))]) .pass,
      .ret (some (.call "Log2" [.var "count"]))]))]⟩

theorem run_calling_eq_screened :
    calling.withPrimitives.check .typeCheck = .ok ⟨calling.withPrimitives.table, []⟩ ∧
      calling.run .default none 4 =
        calling.runCalling .default none (.screened (fun _ _ _ => Effect.exhaust) 4) := by
  have hcheck : calling.withPrimitives.check .typeCheck =
      .ok ⟨calling.withPrimitives.table, []⟩ := by rfl
  exact ⟨hcheck, run_eq_screened hcheck .default (fun _ _ _ => Effect.exhaust) 4⟩

end Program

end ArchSpec
