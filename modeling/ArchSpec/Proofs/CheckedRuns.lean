import ArchSpec.Proofs.Tables
import ArchSpec.Run.Outcome

/-!
# Checking before a run

A program runs on its own, with the primitives declared before it, or against
subprograms that were checked earlier.  The first way adds the whole program to
the table that the check made of it, the second one only what follows the
primitives.  Names may be declared several times, and a program may redeclare a
primitive; the last declaration counts both ways.
-/

namespace ArchSpec

namespace Program

theorem globals_withPrimitives (program : Program) :
    program.withPrimitives.globals = program.globals := by
  have hprimitives : Program.globals ⟨Primitive.declarations⟩ = [] := by decide
  rw [withPrimitives, globals, List.filterMap_append]
  exact congrArg (· ++ program.globals) hprimitives

/-- The program is laid over the primitives. -/
theorem get?_table_withPrimitives (program : Program) (name : String) :
    Named.get? program.withPrimitives.table name =
      (Named.get? program.table name).or
        (Named.get? (Program.table ⟨Primitive.declarations⟩) name) := by
  simp only [Table.get?_table, withPrimitives, subprograms, List.filterMap_append,
    List.reverse_append, List.find?_append]

/-- With the primitives there, to add the program once more changes nothing. -/
theorem get?_addAll_withPrimitives (program : Program) :
    Named.get? (program.withPrimitives.table.addAll program) =
      Named.get? program.withPrimitives.table := by
  funext name
  rw [Table.get?_addAll, get?_table_withPrimitives, ← Option.or_assoc, Option.or_self]

/-- Whatever the check is to do with its findings, the table is that of the
program. -/
theorem subprograms_of_check {program : Program} {strictness : Strictness} {checked : Checked}
    (hcheck : program.check strictness = .ok checked) : checked.subprograms = program.table := by
  cases strictness with
  | silence | warn =>
      cases hcheck
      rfl
  | typeCheck =>
      rw [check] at hcheck
      cases hfound : program.findings with
      | nil =>
          rw [hfound] at hcheck
          cases hcheck
          rfl
      | cons finding rest =>
          rw [hfound] at hcheck
          nomatch hcheck

/-- Of a program, a run sees the globals and what the names find. -/
theorem execute_congr {program program' : Program} {checked checked' : Checked}
    (hglobals : program.globals = program'.globals)
    (hsubprograms : Named.get? (checked.subprograms.addAll program) =
      Named.get? (checked'.subprograms.addAll program')) (config : Config) (bound : Nat) :
    program.execute config checked (.within bound) =
      program'.execute config checked' (.within bound) := by
  simp only [execute, Session.runCalling, Session.start, Calling.within, hglobals, hsubprograms]
  rfl

/-- Against what its own check found, a program ends in the same way, with the
same trace and warnings, and prints the same, as when it is checked as part of
the run.  Only the reported findings come on top then. -/
theorem run_eq_run_checked (program : Program) (config : Config) {checked : Checked} (bound : Nat)
    (hcheck : program.withPrimitives.check config.strictness = .ok checked) :
    program.run config none bound =
      { program.run config (some checked) bound with
        log := checked.log ++ (program.run config (some checked) bound).log } := by
  have hsubprograms : Named.get? (checked.subprograms.addAll program.withPrimitives) =
      Named.get? (checked.subprograms.addAll program) := by
    rw [subprograms_of_check hcheck, Table.get?_addAll_self, get?_addAll_withPrimitives]
  have hexecute : program.withPrimitives.execute config checked (.within bound) =
      program.execute config checked (.within bound) :=
    execute_congr program.globals_withPrimitives hsubprograms config bound
  simp only [run, runCalling, hcheck, hexecute]

/-- A function that is declared twice, and a primitive that is declared again,
for a global and an entry point that call both. -/
def overriding : Program :=
  ⟨[.subprogram (.ofFunction "next" [("n", .integer)] .integer
      (.ret (some (.binary .add (.var "n") (.literal (.int 1)))))),
    .subprogram (.ofFunction "Log2" [("n", .integer)] .integer
      (.ret (some (.binary .mul (.var "n") (.var "n"))))),
    .global ⟨"count", none, some (.call "next" [.literal (.int 4)])⟩,
    .subprogram (.ofFunction entryPoint [] .integer
      (.ret (some (.call "Log2" [.var "count"])))),
    .subprogram (.ofFunction "next" [("n", .integer)] .integer
      (.ret (some (.binary .sub (.var "n") (.literal (.int 1))))))]⟩

/-- What the check makes of it. -/
def overridden : Checked :=
  ⟨overriding.withPrimitives.table, [.repeatedSubprogram "Log2", .repeatedSubprogram "next"]⟩

theorem run_overriding_eq_run_checked :
    overriding.withPrimitives.check .warn = .ok overridden ∧
      overriding.run ⟨.warn, 0, true⟩ none 4 =
        { overriding.run ⟨.warn, 0, true⟩ (some overridden) 4 with
          log := overridden.log ++ (overriding.run ⟨.warn, 0, true⟩ (some overridden) 4).log } := by
  have hcheck : overriding.withPrimitives.check .warn = .ok overridden := by rfl
  exact ⟨hcheck, overriding.run_eq_run_checked ⟨.warn, 0, true⟩ 4 hcheck⟩

/-- The entry point squares what is left of the four. -/
example : (overriding.run ⟨.warn, 0, false⟩ none 4).outcome = .done ⟨9, [], some 0⟩ := by rfl

end Program

end ArchSpec
