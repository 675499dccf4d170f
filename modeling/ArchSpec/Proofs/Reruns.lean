import ArchSpec.Proofs.Residue
import ArchSpec.Proofs.Settings
import ArchSpec.Proofs.Storage.Covered
import ArchSpec.Proofs.Tables

/-!
# Running a program again

A session keeps the globals of its runs, and its activation counters go on.  A
program that succeeds in the state before any run cannot tell, as long as the
counters can go on: whatever it finds there it has declared itself, and the globals
that are left of earlier runs are overwritten as it declares its own.  So a later run
follows the first one step by step, through a storage that covers that of the first
one.  After a fault of the first run nothing is said of the later one, which may find
what the first one has missed.
-/

namespace ArchSpec

/-! ## States of a later run -/

namespace State

/-- A later run has come as far as the first one, after it began with `said`
printed. -/
structure Again (said : String) (first later : State) : Prop where
  storage : first.storage.Covered later.storage
  handled : later.handled = first.handled
  printed : later.printed = said ++ first.printed

variable {said : String} {first later : State}

/-- When nothing is running, a program may be run as if it was the first one. -/
theorem Idle.again (hidle : later.Idle) (recording : Bool) :
    Again later.printed (start recording) later where
  storage := by
    constructor
    · exact fun _ _ hvalue => nomatch hvalue
    · rw [hidle.frames]
      exact .nil
  handled := hidle.handled
  printed := String.append_empty.symm

theorem Again.onStorage (hagain : Again said first later)
    {change change' : Storage Value → Storage Value}
    (hchange : (change first.storage).Covered (change' later.storage)) :
    Again said (first.onStorage change) (later.onStorage change') :=
  { hagain with storage := hchange }

end State

/-! ## The steps of a later run -/

namespace EvalRel

variable {said : String}

/-- A later run follows the first one as long as that one does not fail and the later
one has numbers for its activations. -/
abbrev again (said : String) : EvalRel := .simulating .fatality (State.Again said)

theorem again_readVariable (name : String) :
    again said Value Anything (Eval.readVariable name) (Eval.readVariable name) := by
  intro before before' hbefore
  rw [Eval.readVariable, Eval.readVariable]
  cases hlookup : before.storage.lookup name with
  | none => exact .excused (.failed (.undefinedIdentifier name)) rfl before _
  | some found =>
      obtain ⟨scope', hlookup'⟩ := hbefore.storage.lookup hlookup
      rw [hlookup']
      exact .ended _ { hbefore with } fun _ _ => trivial

theorem again_writeVariable (name : String) (value : Value) :
    again said Unit Anything (Eval.writeVariable name value) (Eval.writeVariable name value) := by
  intro before before' hbefore
  rw [Eval.writeVariable, Eval.writeVariable]
  cases hassign : before.storage.assign name value with
  | none => exact .excused (.failed (.undefinedIdentifier name)) rfl before _
  | some assigned =>
      obtain ⟨updated', scope', hassign', hcovered⟩ := hbefore.storage.assign hassign
      rw [hassign']
      exact .ended _ { hbefore with storage := hcovered } fun _ _ => trivial

theorem again_raiseAgain {α : Type} {Q : α → Prop} :
    again said α Q Eval.raiseAgain Eval.raiseAgain := by
  intro before before' hbefore
  rw [Eval.raiseAgain, Eval.raiseAgain, hbefore.handled]
  cases before.handled with
  | nil | cons => exact .ended _ hbefore (by simp)

/-- The later run may have no number where the first one still has. -/
theorem again_countActivation (subprogram : String) :
    again said Unit Anything (Eval.countActivation subprogram)
      (Eval.countActivation subprogram) := by
  intro before before' hbefore
  rw [Eval.countActivation, Eval.countActivation]
  by_cases hfull' : before'.storage.Full subprogram
  · rw [if_pos hfull']
    exact .crowded _ ⟨rfl, subprogram, hfull'⟩
  · rw [if_neg hfull']
    split
    · exact .excused .overflowed rfl before _
    · exact .ended _ hbefore fun _ _ => trivial

/-- Every step of a later run follows the first one. -/
theorem again_runRel : RunRel Anything Anything (again said) where
  ret hvalue _ _ hbefore := .ended _ hbefore fun _ houtcome => by cases houtcome; exact hvalue
  bind := Simulation.bind
  fault _ _ hbefore := .ended _ hbefore nofun
  overflow _ _ hbefore := .ended _ hbefore nofun
  both := Simulation.both
  readVariable := again_readVariable _
  writeVariable _ := again_writeVariable _ _
  declareLocal _ := Simulation.modify fun _ _ hbefore =>
    { hbefore with storage := hbefore.storage.declare _ _ }
  inBlock := Simulation.within (fun hbefore => hbefore.onStorage hbefore.storage.pushBlock)
    fun hafter => hafter.onStorage hafter.storage.popBlock
  whileHandling _ := Simulation.within
    (fun hbefore => { hbefore with handled := congrArg (List.cons _) hbefore.handled })
    fun hafter => { hafter with handled := congrArg List.tail hafter.handled }
  handling hbody hhandler := Simulation.handling hbody fun exc => hhandler exc trivial
  throwing _ _ _ hbefore := .ended _ hbefore nofun
  raiseAgain := again_raiseAgain
  exhaust _ _ hbefore := .ended _ hbefore nofun
  inActivation hbody := Simulation.bind (again_countActivation _) fun _ _ => Simulation.within
    (fun hbefore => hbefore.onStorage (hbefore.storage.pushFrame _))
    (fun hafter => hafter.onStorage hafter.storage.popFrame) hbody
  print {text} := Simulation.modify fun before before' hbefore =>
    { hbefore with
      printed := by
        change before'.printed ++ text = said ++ (before.printed ++ text)
        rw [hbefore.printed, String.append_assoc] }
  declareGlobal _ := Simulation.modify fun _ _ hbefore =>
    { hbefore with storage := hbefore.storage.declareGlobal _ _ }
  whileInitialising := Simulation.within
    (fun hbefore => hbefore.onStorage ⟨hbefore.storage.globals, hbefore.storage.frames⟩)
    fun hafter => hafter.onStorage ⟨hafter.storage.globals, hafter.storage.frames⟩

/-- Warnings are no part of what has to agree. -/
theorem again_checkUnroll (unroll unroll' finished : Nat) :
    again said Unit Anything (Eval.checkUnroll unroll finished)
      (Eval.checkUnroll unroll' finished) := by
  rw [Eval.checkUnroll_eq_modify, Eval.checkUnroll_eq_modify]
  exact Simulation.modify fun _ _ hbefore => { hbefore with }

end EvalRel

/-! ## Runs -/

namespace Session

/-- Nothing is running, and names find the subprograms of a program as if it was
added to the table for the first time. -/
structure Ready (subprograms : Table) (program : Program) (session : Session) : Prop where
  idle : session.state.Idle
  subprograms : Named.get? (session.subprograms.addAll program) =
    Named.get? (subprograms.addAll program)

variable {subprograms : Table} {unroll bound : Nat} {recording : Bool} {program : Program}
variable {value : Value} {session after : Session}

/-- To run a program adds it to the table. -/
theorem subprograms_run (session : Session) (bound : Nat) (program : Program) :
    (session.run bound program).2.subprograms = session.subprograms.addAll program := rfl

/-- There is a subprogram that cannot be activated any more. -/
def Crowded (session : Session) : Prop := ∃ subprogram, session.state.storage.Full subprogram

/-- A run whose program has yielded a value in the state before any run, with
the same subprograms, yields it too and prints the same, unless it has no number for
an activation. -/
theorem Ready.run (hready : session.Ready subprograms program)
    (hrun : (start subprograms unroll recording).run bound program = (.done value, after)) :
    (∃ later, session.run bound program = (.done value, later) ∧
      later.state.printed = session.state.printed ++ after.state.printed ∧
      later.Ready subprograms program) ∨
    ∃ later, session.run bound program = (.overflowed, later) ∧ later.Crowded := by
  have hagain := hready.idle.again recording
  have hfollows := runWithin_related EvalRel.again_runRel .anything
    (Named.get? (subprograms.addAll program)) program.globals (.refl _ bound)
    (EvalRel.again_checkUnroll unroll session.unroll) _ _ hagain
  have hends : ∃ outcome state, session.run bound program =
        (outcome, { session with subprograms := session.subprograms.addAll program, state }) ∧
      (outcome = .done value ∧ State.Again session.state.printed after.state state ∨
        outcome = .overflowed ∧ ∃ subprogram, state.storage.Full subprogram) := by
    simp only [Session.run, runCalling, Calling.within, start, hready.subprograms] at hrun ⊢
    generalize runGlobalsAndMain _ _ (State.start recording) = first at hrun hfollows
    generalize runGlobalsAndMain _ _ session.state = second at hfollows ⊢
    rcases first with ⟨outcome, state⟩
    obtain ⟨rfl, rfl⟩ := Prod.mk.inj hrun
    cases hfollows with
    | ended _ hstate => exact ⟨_, _, rfl, .inl ⟨rfl, hstate⟩⟩
    | excused _ hcovers => exact hcovers.elim
    | crowded _ hcrowded => exact ⟨_, _, rfl, .inr ⟨rfl, hcrowded.2⟩⟩
  obtain ⟨_, state, hsecond, ⟨rfl, hstate⟩ | ⟨rfl, hfull⟩⟩ := hends
  · refine .inl ⟨_, hsecond, hstate.printed, (clean_of_done hready.idle hsecond).toIdle, ?_⟩
    rw [Table.get?_addAll_addAll, hready.subprograms]
  · exact .inr ⟨_, hsecond, hfull⟩

/-- Run so many times, a program yields a value each time, and prints a text. -/
def Repeats (session : Session) (bound : Nat) (program : Program) (value : Value) (text : String)
    (times : Nat) : Prop :=
  (session.runAll bound (List.replicate times program)).1 = List.replicate times (.done value) ∧
    (session.runAll bound (List.replicate times program)).2.state.printed =
      session.state.printed ++ String.join (List.replicate times text)

/-- A program repeats itself fewer times than it is run, and then there is no number
for an activation. -/
def RunsOut (session : Session) (bound : Nat) (program : Program) (value : Value) (text : String)
    (times : Nat) : Prop :=
  ∃ completed later, completed < times ∧ session.Repeats bound program value text completed ∧
    (session.runAll bound (List.replicate completed program)).2.run bound program =
      (.overflowed, later) ∧ later.Crowded

variable {later : Session} {text : String} {times : Nat}

theorem runAll_replicate_succ (hrun : session.run bound program = (.done value, later))
    (times : Nat) :
    session.runAll bound (List.replicate (times + 1) program) =
      (.done value :: (later.runAll bound (List.replicate times program)).1,
        (later.runAll bound (List.replicate times program)).2) := by
  rw [List.replicate_succ, Session.runAll, hrun]

theorem Repeats.succ (hrun : session.run bound program = (.done value, later))
    (hprinted : later.state.printed = session.state.printed ++ text)
    (hrest : later.Repeats bound program value text times) :
    session.Repeats bound program value text (times + 1) := by
  rw [Repeats, runAll_replicate_succ hrun]
  constructor
  · rw [List.replicate_succ, hrest.1]
  · rw [List.replicate_succ, String.join_cons, hrest.2, hprinted, String.append_assoc]

/-- A program that yields a value in the state before any run yields it again as
often as it is run on, and prints the same each time, unless the numbers run out. -/
theorem Ready.runAll (hready : session.Ready subprograms program)
    (hrun : (start subprograms unroll recording).run bound program = (.done value, after))
    (times : Nat) :
    session.Repeats bound program value after.state.printed times ∨
      session.RunsOut bound program value after.state.printed times := by
  induction times generalizing session with
  | zero => exact .inl ⟨rfl, String.append_empty.symm⟩
  | succ times ih =>
      rcases hready.run hrun with ⟨later, hlater, hprinted, hlaterReady⟩ | ⟨later, hlater, hfull⟩
      · rcases ih hlaterReady with hrest | ⟨completed, last, hless, hrest, hlast, hfull⟩
        · exact .inl (hrest.succ hlater hprinted)
        · refine .inr ⟨completed + 1, last, Nat.succ_lt_succ hless, hrest.succ hlater hprinted,
            ?_, hfull⟩
          rw [runAll_replicate_succ hlater]
          exact hlast
      · exact .inr ⟨0, later, Nat.succ_pos times, ⟨rfl, String.append_empty.symm⟩, hlater, hfull⟩

/-- A program that yields a value in the state before any run, whatever
subprograms there are, can be run again: however often, it yields that value
each time and prints the same text each time.  The counters of activations apart: if
one of them overflows, then all runs before have done so. -/
theorem run_again
    (hrun : (start subprograms unroll recording).run bound program = (.done value, after))
    (times : Nat) :
    (after.runAll bound (List.replicate times program)).1 = List.replicate times (.done value) ∧
      (after.runAll bound (List.replicate times program)).2.state.printed =
        String.join (List.replicate (times + 1) after.state.printed) ∨
    after.RunsOut bound program value after.state.printed times := by
  have hready : after.Ready subprograms program := by
    constructor
    · exact (clean_of_done ⟨rfl, rfl⟩ hrun).toIdle
    · have hafter := (start subprograms unroll recording).subprograms_run bound program
      rw [hrun] at hafter
      rw [hafter]
      exact Table.get?_addAll_addAll subprograms program
  rw [List.replicate_succ, String.join_cons]
  exact hready.runAll hrun times

end Session

/-- A global that an initialiser changes, and an entry point that prints and
changes it once more. -/
def Program.tallying : Program :=
  ⟨[.global ⟨"count", none, some (.literal (.int 1))⟩,
    .subprogram (.ofFunction "next" [] .integer (.block
      [.assign (.var "count") (.binary .add (.var "count") (.literal (.int 1))),
        .ret (some (.var "count"))])),
    .global ⟨"second", none, some (.call "next" [])⟩,
    .subprogram (.ofFunction entryPoint [] .integer (.block
      [.call "print" [.literal (.str "tally")],
        .assign (.var "count") (.binary .mul (.var "count") (.var "second")),
        .ret (some (.var "count"))]))]⟩

theorem Session.run_tallying_again :
    ∃ after, (start (Program.table ⟨Primitive.declarations⟩) 0 true).run 3 .tallying =
        (.done (.int 4), after) ∧
      (after.runAll 3 (List.replicate 2 .tallying)).1 = List.replicate 2 (.done (.int 4)) ∧
      (after.runAll 3 (List.replicate 2 .tallying)).2.state.printed =
        String.join (List.replicate 3 after.state.printed) := by
  let first := (start (Program.table ⟨Primitive.declarations⟩) 0 true).run 3 .tallying
  have hrun : (start (Program.table ⟨Primitive.declarations⟩) 0 true).run 3 .tallying =
      (.done (.int 4), first.2) := rfl
  have hnonfatal : ∀ completed < 2,
      ((first.2.runAll 3 (List.replicate completed .tallying)).2.run 3 .tallying).1.Nonfatal := by
    decide +kernel
  rcases run_again hrun 2 with hagain | ⟨completed, later, hless, _, hlater, _⟩
  · exact ⟨first.2, hrun, hagain⟩
  · have hlast := hnonfatal completed hless
    rw [hlater] at hlast
    exact hlast.elim

end ArchSpec
