import ArchSpec.Run.Config
import ArchSpec.Run.Session

/-!
# Runs

A run takes a program, a configuration, and possibly a table of subprograms
that was checked before.  Without one, the primitives are declared before the
program and the whole is checked first.  The value of the entry point is the
exit code, which has to be a 32-bit integer.
-/

namespace ArchSpec

structure Completion where
  exitCode : Int
  /-- The recorded accesses; none unless the run is instrumented. -/
  trace : List Event
  /-- The number of warnings; none if it overflowed. -/
  warningCount : Option UInt32

structure Report where
  outcome : Outcome Completion
  printed : String
  /-- Reported findings and warnings in order. -/
  log : List String

namespace Checked

/-- The reported findings as lines of the log. -/
def log (checked : Checked) : List String :=
  checked.warnings.map fun finding => "static check: " ++ finding.message

end Checked

namespace Value

def exitCode (value : Value) : Except Fault Int := do
  let n ← value.asInt
  if -(pow2 31 : Int) ≤ n ∧ n < pow2 31 then return n
  else throw (value.mismatch [.range (some (-(pow2 31 : Int))) (some (pow2 31 - 1))])

end Value

namespace Session

/-- The completion of a session whose last run ended with `outcome`. -/
def complete (session : Session) : Outcome Value → Outcome Completion
  | .done value =>
      match value.exitCode with
      | .ok exitCode => .done ⟨exitCode, session.trace, session.warningCount⟩
      | .error fault => .failed fault
  | .thrown exc => .thrown exc
  | .failed fault => .failed fault
  | .overflowed => .overflowed
  | .exhausted => .exhausted

end Session

namespace Program

/-- Runs a program against checked subprograms, given what its calls mean. -/
def execute (program : Program) (config : Config) (checked : Checked) (calling : Calling) :
    Report :=
  let session := Session.start checked.subprograms config.unroll.toNat config.instrument
  let (outcome, session) := session.runCalling calling program
  ⟨session.complete outcome, session.state.printed, session.warnings⟩

/-- Runs a program, given what its calls mean; without checked subprograms it is
checked first. -/
def runCalling (program : Program) (config : Config) (checked : Option Checked)
    (calling : Calling) : Report :=
  match checked with
  | some checked => program.execute config checked calling
  | none =>
      let program := program.withPrimitives
      match program.check config.strictness with
      | .error fault => ⟨.failed fault, "", []⟩
      | .ok checked =>
          let report := program.execute config checked calling
          { report with log := checked.log ++ report.log }

/-- Runs a program with at most `bound` nested calls and rounds of a loop. -/
def run (program : Program) (config : Config) (checked : Option Checked) (bound : Nat) :
    Report :=
  program.runCalling config checked (.within bound)

/-- A bound on nested calls and loop rounds that no run reaches in practice. -/
def practicalBound : Nat := pow2 62

end Program

end ArchSpec
