import ArchSpec.Eval.Call

/-!
# Sessions

A session runs programs one after the other.  Everything that evaluation
changes stays from one run to the next: global variables, activation counters,
and also the frames and handlers that a fault left behind.  The subprograms of
a program are added to the table before it runs.  An overflow ends the whole
session: the programs after it are never run.
-/

namespace ArchSpec

/-- A sequence of runs so far. -/
structure Session where
  subprograms : Table
  /-- The rounds before a loop warns; zero means never. -/
  unroll : Nat
  state : State

namespace Session

def start (subprograms : Table) (unroll : Nat) (recording : Bool) : Session :=
  ⟨subprograms, unroll, .start recording⟩

def initGlobals (calls : Calls) : List Global → Eval Unit
  | [] => return ()
  | decl :: rest => do
      let value ← Eval.initialValue calls ("global " ++ decl.name) decl.ty decl.init
      Eval.declareGlobal decl.name value
      initGlobals calls rest

def callMain (calls : Calls) : Eval Value := do
  match ← calls .run entryPoint [] with
  | [value] => return value
  | _ => Effect.fault (.staticCheck "main must return exactly one value")

/-- Initialises the globals of a program and calls its entry point.  An
exception that nobody handles is a fault. -/
def runGlobalsAndMain (calls : Calls) (globals : List Global) : Eval Value :=
  Effect.handling
    (do
      Eval.whileInitialising (initGlobals calls globals)
      callMain calls)
    fun exc => Effect.fault (.uncaughtException exc.print)

/-- Runs a program, given what its calls mean. -/
def runCalling (session : Session) (calling : Calling) (program : Program) :
    Outcome Value × Session :=
  let subprograms := session.subprograms.addAll program
  let calls := calling subprograms session.unroll
  let (outcome, state) := runGlobalsAndMain calls program.globals session.state
  (outcome, { session with subprograms, state })

/-- Runs a program with at most `bound` nested calls and rounds of a loop. -/
def run (session : Session) (bound : Nat) (program : Program) :
    Outcome Value × Session :=
  session.runCalling (.within bound) program

def runAll (session : Session) (bound : Nat) : List Program → List (Outcome Value) × Session
  | [] => ([], session)
  | program :: rest =>
      match session.run bound program with
      | (.overflowed, session) => ([.overflowed], session)
      | (outcome, session) =>
          let (outcomes, session) := session.runAll bound rest
          (outcome :: outcomes, session)

/-- The number of warnings, unless it overflows a 32-bit word.  That shows when they
are counted, and a run goes on past it. -/
def warningCount (session : Session) : Option UInt32 :=
  if session.state.warnings.length < UInt32.size then
    some (UInt32.ofNat session.state.warnings.length)
  else none

/-- The warnings in the order in which they were raised. -/
def warnings (session : Session) : List String := session.state.warnings.reverse

def trace (session : Session) : List Event := session.state.recorder.contents

end Session

end ArchSpec
