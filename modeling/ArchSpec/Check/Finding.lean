import ArchSpec.Check.CallSite

/-!
# The static check

Before a program runs, its subprograms are collected into a table, and what
would go wrong at every run is reported: names declared twice, a missing entry
point, calls that cannot succeed.  How strict the check is decides whether the
findings are ignored, reported or refused.  Of two subprograms with one name
the later one counts.
-/

namespace ArchSpec

/-- What becomes of findings. -/
inductive Strictness where
  | silence
  | warn
  | typeCheck
deriving DecidableEq

namespace Strictness

/-- Every level, from the least strict to the strictest. -/
def all : List Strictness := [silence, warn, typeCheck]

/-- The name of a level in configurations and on the command line. -/
def name : Strictness → String
  | silence => "silence"
  | warn => "warn"
  | typeCheck => "type-check"

def ofName? (name : String) : Option Strictness :=
  all.find? fun strictness => strictness.name = name

end Strictness

inductive Finding where
  | repeatedSubprogram (name : String)
  | repeatedGlobal (name : String)
  | noMain
  | undeclared (caller callee : String)
  | procedureAsValue (caller callee : String)
  | argumentCount (caller callee : String) (actual expected : Nat)
deriving DecidableEq

namespace Finding

def message : Finding → String
  | repeatedSubprogram name => "subprogram " ++ name ++ " is declared more than once"
  | repeatedGlobal name => "global " ++ name ++ " is declared more than once"
  | noMain => "no main subprogram"
  | undeclared caller callee => caller ++ " calls undeclared subprogram " ++ callee
  | procedureAsValue caller callee =>
      caller ++ " uses procedure " ++ callee ++ " as a value"
  | argumentCount caller callee actual expected =>
      caller ++ " calls " ++ callee ++ " with " ++ toString actual ++
        " argument(s), expected " ++ toString expected

end Finding

abbrev Table := Named Subprogram

def entryPoint : String := "main"

namespace Table

/-- The table with a subprogram added; it replaces one with the same name. -/
def add (table : Table) (decl : Subprogram) : Table :=
  Named.insert table decl.name decl

/-- The table with all subprograms of a program added. -/
def addAll (table : Table) (program : Program) : Table :=
  program.subprograms.foldl add table

/-- What is wrong with a call, given the subprograms that there are. -/
def checkCall (table : Table) (site : CallSite) : Option Finding :=
  match Named.get? table site.call.callee with
  | none => some (.undeclared site.caller site.call.callee)
  | some decl =>
      if site.call.forValue ∧ decl.kind = .procedure then
        some (.procedureAsValue site.caller site.call.callee)
      else if !decl.isPrimitive ∧ decl.args.length ≠ site.call.argCount then
        some (.argumentCount site.caller site.call.callee site.call.argCount
          decl.args.length)
      else none

end Table

namespace Program

def table (program : Program) : Table := Table.addAll [] program

def findings (program : Program) : List Finding :=
  let subprograms := program.subprograms.map Subprogram.name
  let globals := program.globals.map Global.name
  (Named.repeats subprograms).map Finding.repeatedSubprogram ++
    (Named.repeats globals).map Finding.repeatedGlobal ++
    (if subprograms.contains entryPoint then [] else [.noMain]) ++
    program.callSites.filterMap program.table.checkCall

end Program

/-- A checked program's subprograms, and the findings to report. -/
structure Checked where
  subprograms : Table
  warnings : List Finding

namespace Program

def check (program : Program) (strictness : Strictness) : Except Fault Checked :=
  match strictness with
  | .silence => .ok ⟨program.table, []⟩
  | .warn => .ok ⟨program.table, program.findings⟩
  | .typeCheck =>
      match program.findings with
      | finding :: _ => .error (.staticCheck finding.message)
      | [] => .ok ⟨program.table, []⟩

end Program

end ArchSpec
