import ArchSpec.CommandLine.Arguments
import ArchSpec.CommandLine.Directory
import ArchSpec.Program.Decode
import ArchSpec.Run.ConfigText
import ArchSpec.Run.Outcome
import ArchSpec.Trace.Codec

/-!
# Executing commands

A command reads the files that it is given, and may write one.  How files are
read and written is a parameter, so the same commands work on the disk and on a
directory in memory.  The program is read before the configuration, and a trace
is written only after a run that completes.
-/

namespace ArchSpec.CommandLine

/-- Reading and writing of files; a failure comes with its reason. -/
structure FileAccess (m : Type → Type) where
  read : String → m (Except String String)
  write : String → String → m (Except String Unit)

/-- What the user gets to see. -/
structure Answer where
  status : Nat
  printed : String
  log : List String
  reason : Option String

namespace Answer

def success (printed : String) : Answer := ⟨0, printed, [], none⟩

/-- A command that fails before it does anything. -/
def failure (reason : String) : Answer := ⟨1, "", [], some reason⟩

def errorLine (answer : Answer) : Option String :=
  answer.reason.map ("Error: " ++ ·)

/-- Everything that is reported as an error, in order. -/
def complaints (answer : Answer) : List String := answer.log ++ answer.errorLine.toList

end Answer

/-- The exit status that an exit code becomes. -/
def exitStatus (code : Int) : Nat := (code % 256).toNat

def unreadable (what : String) : String := what ++ " is not valid"

variable {m : Type → Type} [Monad m]

def loadProgram (files : FileAccess m) (path : String) : m (Except String Program) := do
  match ← files.read path with
  | .error reason => return .error reason
  | .ok text =>
      match Program.ofText? text with
      | some program => return .ok program
      | none => return .error (unreadable "the program")

/-- The configuration in a file, or the default one. -/
def loadConfig (files : FileAccess m) (path : Option String) :
    m (Except String Config) := do
  match path with
  | none => return .ok Config.default
  | some path =>
      match ← files.read path with
      | .error reason => return .error reason
      | .ok text =>
          match Config.ofToml? text with
          | some config => return .ok config
          | none => return .error (unreadable "the configuration")

/-- The exit status of a program that an overflow ended. -/
def overflowStatus : Nat := 101

/-- The completion of a run; without one, the status that the command exits with
and why.  An overflow ends the command itself, so it gives no reason. -/
def completed : Outcome Completion → Except (Nat × Option String) Completion
  | .done completion =>
      match completion.warningCount with
      | some _ => .ok completion
      | none => .error (overflowStatus, none)
  | .thrown exc => .error (1, some (Fault.uncaughtException exc.print).message)
  | .failed fault => .error (1, some fault.message)
  | .overflowed => .error (overflowStatus, none)
  | .exhausted => .error (1, some "the run takes too long")

/-- Answers a run, after its trace is written if that is asked for. -/
def answerRun (files : FileAccess m) (trace : Option String) (report : Report) :
    m Answer := do
  match completed report.outcome with
  | .error (status, reason) => return ⟨status, report.printed, report.log, reason⟩
  | .ok completion =>
      let answer : Answer :=
        ⟨exitStatus completion.exitCode, report.printed, report.log, none⟩
      match trace with
      | none => return answer
      | some path =>
          match ← files.write path (Trace.toJson completion.trace) with
          | .ok () => return answer
          | .error reason => return { answer with status := 1, reason := some reason }

def executeRun (files : FileAccess m) (bound : Nat) (file : String)
    (config : Option String) (strictness : Option Strictness) (instrument : Bool)
    (trace : Option String) : m Answer := do
  match ← loadProgram files file with
  | .error reason => return .failure reason
  | .ok program =>
      match ← loadConfig files config with
      | .error reason => return .failure reason
      | .ok config =>
          let config : Config :=
            { config with
              strictness := strictness.getD config.strictness
              instrument := config.instrument || instrument || trace.isSome }
          answerRun files trace (program.run config none bound)

def checkLine (file : String) (checked : Checked) : String :=
  "✓ " ++ file ++ " checks successfully (" ++ toString checked.subprograms.length ++
    " subprograms)\n"

def executeCheck (files : FileAccess m) (file : String) (strictness : Strictness) :
    m Answer := do
  match ← loadProgram files file with
  | .error reason => return .failure reason
  | .ok program =>
      match program.withPrimitives.check strictness with
      | .error fault => return .failure fault.message
      | .ok checked => return { Answer.success (checkLine file checked) with log := checked.log }

/-- The declarations of the primitives as indented JSON. -/
def primitivesText : String :=
  (Json.arr (Primitive.declarations.map Decl.encode)).pretty

def execute (files : FileAccess m) (bound : Nat) : Command → m Answer
  | .run file config strictness instrument trace =>
      executeRun files bound file config strictness instrument trace
  | .check file strictness => executeCheck files file strictness
  | .primitives => return .success (primitivesText ++ "\n")

def versionLine : String := "asl 0.1.0\n"

def answer (files : FileAccess m) (bound : Nat) (arguments : List String) : m Answer :=
  match request arguments with
  | .command command => execute files bound command
  | .help topic => return .success topic.text
  | .version => return .success versionLine
  | .misuse => return ⟨2, "", [], none⟩

def Directory.access : FileAccess (StateM Directory) where
  read path := return (← get).read path
  write path text := do
    match (← get).write path text with
    | .ok directory => do
        set directory
        return .ok ()
    | .error reason => return .error reason

end ArchSpec.CommandLine
