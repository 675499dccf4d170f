import ArchSpec.Proofs.CheckedCalls
import ArchSpec.Proofs.CheckedRuns

/-!
# The order of declarations

Subprograms may call each other whatever the order in which they are declared.
Programs with the same globals in the same order, and the same subprograms in any
order and anywhere between them, pass the static check together, and their runs
come to the same.  Only findings may be reported in another order.
-/

namespace ArchSpec

namespace Named

variable {names names' : List String}

theorem count_repeats_go (seen names : List String) (name : String) :
    (repeats.go seen names).count name =
      if name ∈ seen then names.count name else names.count name - 1 := by
  induction names generalizing seen with
  | nil => simp [repeats.go]
  | cons first rest ih =>
      rw [repeats.go]
      by_cases hfirst : first = name
      · subst hfirst
        by_cases hseen : first ∈ seen <;> simp [hseen, ih]
      · by_cases hseen : first ∈ seen <;> simp [hseen, ih, hfirst, Ne.symm hfirst]

/-- A name is repeated each time that it occurs, except for the first time. -/
theorem count_repeats (names : List String) (name : String) :
    (repeats names).count name = names.count name - 1 := by
  rw [repeats, count_repeats_go, if_neg List.not_mem_nil]

theorem repeats_perm (hperm : names.Perm names') : (repeats names).Perm (repeats names') := by
  apply List.perm_iff_count.mpr
  intro name
  rw [count_repeats, count_repeats, hperm.count_eq]

end Named

/-- Among subprograms with distinct names a name finds the one that has it. -/
theorem Subprogram.find?_eq_some_iff {decls : List Subprogram} {name : String}
    {decl : Subprogram} (hdistinct : (decls.map Subprogram.name).Nodup) :
    (decls.find? fun decl => decl.name = name) = some decl ↔ decl ∈ decls ∧ decl.name = name := by
  induction decls with
  | nil => simp
  | cons first rest ih =>
      rw [List.map_cons, List.nodup_cons] at hdistinct
      by_cases hfirst : first.name = name
      · rw [List.find?_cons_of_pos (by simpa using hfirst), Option.some.injEq, List.mem_cons]
        constructor
        · rintro rfl
          exact ⟨.inl rfl, hfirst⟩
        · rintro ⟨rfl | hrest, hname⟩
          · rfl
          · refine absurd (List.mem_map.mpr ⟨decl, hrest, ?_⟩) hdistinct.1
            rw [hname, hfirst]
      · rw [List.find?_cons_of_neg (by simpa using hfirst), ih hdistinct.2, List.mem_cons]
        constructor
        · exact fun hdecl => ⟨.inr hdecl.1, hdecl.2⟩
        · rintro ⟨rfl | hrest, hname⟩
          · exact absurd hname hfirst
          · exact ⟨hrest, hname⟩

namespace Table

/-- With distinct names, a name finds the subprogram that has it. -/
theorem get?_table_eq_some_iff {program : Program} {name : String} {decl : Subprogram}
    (hdistinct : (program.subprograms.map Subprogram.name).Nodup) :
    Named.get? program.table name = some decl ↔
      decl ∈ program.subprograms ∧ decl.name = name := by
  have hreversed : (program.subprograms.reverse.map Subprogram.name).Nodup :=
    ((List.reverse_perm _).map Subprogram.name).nodup_iff.mpr hdistinct
  rw [get?_table, Subprogram.find?_eq_some_iff hreversed, List.mem_reverse]

/-- What is found wrong with a call depends on the subprograms that names find. -/
theorem checkCall_congr {table table' : Table} (hget : Named.get? table = Named.get? table') :
    table.checkCall = table'.checkCall := by
  funext site
  rw [checkCall, checkCall, hget]

end Table

namespace Program

variable {program program' : Program} {checked checked' : Checked} {strictness : Strictness}

/-! ## Declarations in another order -/

/-- The declarations of a program are its subprograms and its globals. -/
theorem decls_perm (program : Program) :
    program.decls.Perm
      (program.subprograms.map Decl.subprogram ++ program.globals.map Decl.global) := by
  rcases program with ⟨decls⟩
  induction decls with
  | nil => exact .refl []
  | cons decl rest ih =>
      cases decl with
      | subprogram decl => exact ih.cons _
      | global decl => exact (ih.cons _).trans List.perm_middle.symm

/-- Both programs have the same globals in the same order, and the same
subprograms with distinct names in any order. -/
structure Reordered (program program' : Program) : Prop where
  globals : program.globals = program'.globals
  subprograms : program.subprograms.Perm program'.subprograms
  distinct : (program.subprograms.map Subprogram.name).Nodup

theorem subprograms_withPrimitives (program : Program) :
    program.withPrimitives.subprograms =
      Program.subprograms ⟨Primitive.declarations⟩ ++ program.subprograms := by
  rw [withPrimitives, subprograms, List.filterMap_append]
  rfl

namespace Reordered

/-- A name finds the same subprogram in both programs. -/
theorem get?_table (hreordered : Reordered program program') :
    Named.get? program.table = Named.get? program'.table := by
  have hnames := hreordered.subprograms.map Subprogram.name
  have hdistinct' := hnames.nodup_iff.mp hreordered.distinct
  funext name
  apply Option.ext
  intro decl
  rw [Table.get?_table_eq_some_iff hreordered.distinct, Table.get?_table_eq_some_iff hdistinct',
    hreordered.subprograms.mem_iff]

/-- So it does with the primitives there, also if the programs redeclare some. -/
theorem get?_table_withPrimitives (hreordered : Reordered program program') :
    Named.get? program.withPrimitives.table = Named.get? program'.withPrimitives.table := by
  funext name
  rw [Program.get?_table_withPrimitives, Program.get?_table_withPrimitives, hreordered.get?_table]

end Reordered

/-! ## The static check -/

theorem callSites_perm (hglobals : program.globals = program'.globals)
    (hsubprograms : program.subprograms.Perm program'.subprograms) :
    program.callSites.Perm program'.callSites := by
  have hdecls : program.decls.Perm program'.decls := by
    refine program.decls_perm.trans (.trans ?_ program'.decls_perm.symm)
    rw [hglobals]
    exact (hsubprograms.map Decl.subprogram).append_right _
  exact hdecls.flatMap_right Decl.callSites

/-- Both programs have the same findings if their names find the same subprograms. -/
theorem findings_perm (hglobals : program.globals = program'.globals)
    (hsubprograms : program.subprograms.Perm program'.subprograms)
    (htable : Named.get? program.table = Named.get? program'.table) :
    program.findings.Perm program'.findings := by
  have hnames := hsubprograms.map Subprogram.name
  have hentry : (program.subprograms.map Subprogram.name).contains entryPoint =
      (program'.subprograms.map Subprogram.name).contains entryPoint := by
    rw [List.contains_eq_mem, List.contains_eq_mem, decide_eq_decide]
    exact hnames.mem_iff
  have hcalls : (program.callSites.filterMap program.table.checkCall).Perm
      (program'.callSites.filterMap program'.table.checkCall) := by
    rw [Table.checkCall_congr htable]
    exact (callSites_perm hglobals hsubprograms).filterMap _
  simp only [findings, hglobals, hentry]
  exact ((((Named.repeats_perm hnames).map _).append_right _).append_right _).append hcalls

/-- The strictest check passes. -/
def Accepted (program : Program) : Prop := ∃ checked, program.check .typeCheck = .ok checked

theorem accepted_iff : program.Accepted ↔ program.findings = [] := by
  constructor
  · rintro ⟨checked, hcheck⟩
    exact (check_of_typeCheck hcheck).1
  · intro hfindings
    exact ⟨⟨program.table, []⟩, by rw [check, hfindings]⟩

theorem accepted_iff_of_perm (hfindings : program.findings.Perm program'.findings) :
    program.Accepted ↔ program'.Accepted := by
  rw [accepted_iff, accepted_iff]
  constructor
  · intro hnone
    exact (hnone ▸ hfindings).nil_eq.symm
  · intro hnone
    exact (hnone ▸ hfindings).eq_nil

/-- Findings are reported at the middle level only. -/
theorem warnings_of_check (hcheck : program.check strictness = .ok checked) :
    checked.warnings = if strictness = .warn then program.findings else [] := by
  cases strictness with
  | silence | warn =>
      cases hcheck
      rfl
  | typeCheck =>
      have hpassed := (check_of_typeCheck hcheck).2 .typeCheck
      cases hcheck.symm.trans hpassed
      rfl

theorem log_perm (hfindings : program.findings.Perm program'.findings)
    (hcheck : program.check strictness = .ok checked)
    (hcheck' : program'.check strictness = .ok checked') : checked.log.Perm checked'.log := by
  apply List.Perm.map
  rw [warnings_of_check hcheck, warnings_of_check hcheck']
  split
  · exact hfindings
  · exact .refl []

end Program

/-! ## Runs -/

/-- Two runs came to the same, and reported the same in some order. -/
structure Report.Agrees (report report' : Report) : Prop where
  outcome : report.outcome = report'.outcome
  printed : report.printed = report'.printed
  log : report.log.Perm report'.log

namespace Program

variable {program program' : Program} {checked checked' : Checked} {strictness : Strictness}

/-- Of the subprograms of a program, and of those that were checked before, a run
sees what names find. -/
theorem execute_eq_of_tables (hglobals : program.globals = program'.globals)
    (htable : Named.get? program.table = Named.get? program'.table)
    (hchecked : Named.get? checked.subprograms = Named.get? checked'.subprograms)
    (config : Config) (bound : Nat) :
    program.execute config checked (.within bound) =
      program'.execute config checked' (.within bound) := by
  apply execute_congr hglobals
  funext name
  rw [Table.get?_addAll, Table.get?_addAll, htable, hchecked]

/-- To declare the subprograms of a program in another order, and elsewhere between
the globals, changes neither whether the check accepts it nor what any of its runs
comes to, whether the check is part of the run or came before it. -/
theorem Reordered.runs_agree (hreordered : Reordered program program') :
    (program.Accepted ↔ program'.Accepted) ∧
      (program.withPrimitives.Accepted ↔ program'.withPrimitives.Accepted) ∧
      (∀ (config : Config) (bound : Nat) (checked checked' : Checked),
        program.withPrimitives.check config.strictness = .ok checked →
        program'.withPrimitives.check config.strictness = .ok checked' →
        (program.run config none bound).Agrees (program'.run config none bound)) ∧
      ∀ (config : Config) (bound : Nat) (strictness : Strictness) (checked checked' : Checked),
        program.withPrimitives.check strictness = .ok checked ∧
            program'.withPrimitives.check strictness = .ok checked' ∨
          program.check strictness = .ok checked ∧ program'.check strictness = .ok checked' →
        program.run config (some checked) bound =
          program'.run config (some checked') bound := by
  have hfindings := findings_perm hreordered.globals hreordered.subprograms hreordered.get?_table
  have hglobals : program.withPrimitives.globals = program'.withPrimitives.globals := by
    rw [globals_withPrimitives, globals_withPrimitives, hreordered.globals]
  have hsubprograms : program.withPrimitives.subprograms.Perm
      program'.withPrimitives.subprograms := by
    rw [subprograms_withPrimitives, subprograms_withPrimitives]
    exact hreordered.subprograms.append_left _
  have htable := hreordered.get?_table_withPrimitives
  have hprimitives := findings_perm hglobals hsubprograms htable
  refine ⟨accepted_iff_of_perm hfindings, accepted_iff_of_perm hprimitives, ?_, ?_⟩
  · intro config bound checked checked' hcheck hcheck'
    have hchecked : Named.get? checked.subprograms = Named.get? checked'.subprograms := by
      rw [subprograms_of_check hcheck, subprograms_of_check hcheck', htable]
    simp only [run, runCalling, hcheck, hcheck',
      execute_eq_of_tables hglobals htable hchecked config bound]
    exact ⟨rfl, rfl, (log_perm hprimitives hcheck hcheck').append_right _⟩
  · intro config bound strictness checked checked' hchecks
    apply execute_eq_of_tables hreordered.globals hreordered.get?_table
    rcases hchecks with ⟨hcheck, hcheck'⟩ | ⟨hcheck, hcheck'⟩ <;>
      rw [subprograms_of_check hcheck, subprograms_of_check hcheck']
    · exact htable
    · exact hreordered.get?_table

/-- Two functions that call each other, a primitive that is declared again, and a
global between them that calls all three. -/
def alternating : Program :=
  ⟨[.subprogram (.ofFunction "even" [("n", .integer)] .integer
      (.branch (.binary .eq (.var "n") (.literal (.int 0))) (.ret (some (.literal (.int 1))))
        (.ret (some (.call "odd" [.binary .sub (.var "n") (.literal (.int 1))]))))),
    .global ⟨"parity", none, some (.call "Log2" [.call "even" [.literal (.int 3)]])⟩,
    .subprogram (.ofFunction "odd" [("n", .integer)] .integer
      (.branch (.binary .eq (.var "n") (.literal (.int 0))) (.ret (some (.literal (.int 0))))
        (.ret (some (.call "even" [.binary .sub (.var "n") (.literal (.int 1))]))))),
    .subprogram (.ofFunction "Log2" [("n", .integer)] .integer
      (.ret (some (.binary .add (.var "n") (.literal (.int 5)))))),
    .subprogram (.ofFunction entryPoint [] .integer (.ret (some (.var "parity"))))]⟩

/-- The same declarations from the last to the first. -/
def alternated : Program := ⟨alternating.decls.reverse⟩

theorem alternating_runs_agree :
    alternating.Reordered alternated ∧
      alternating.withPrimitives.check .warn =
        .ok ⟨alternating.withPrimitives.table, [.repeatedSubprogram "Log2"]⟩ ∧
      alternated.withPrimitives.check .warn =
        .ok ⟨alternated.withPrimitives.table, [.repeatedSubprogram "Log2"]⟩ ∧
      (alternating.run ⟨.warn, 0, true⟩ none 6).Agrees
        (alternated.run ⟨.warn, 0, true⟩ none 6) := by
  have hreordered : alternating.Reordered alternated := by
    refine ⟨rfl, ?_, by decide⟩
    exact (List.reverse_perm _).symm
  have hcheck : alternating.withPrimitives.check .warn =
      .ok ⟨alternating.withPrimitives.table, [.repeatedSubprogram "Log2"]⟩ := by rfl
  have hcheck' : alternated.withPrimitives.check .warn =
      .ok ⟨alternated.withPrimitives.table, [.repeatedSubprogram "Log2"]⟩ := by rfl
  obtain ⟨_, _, hruns, _⟩ := hreordered.runs_agree
  exact ⟨hreordered, hcheck, hcheck', hruns ⟨.warn, 0, true⟩ 6 _ _ hcheck hcheck'⟩

/-- Three is odd, and the declared `Log2` adds five to zero. -/
example : (alternated.run ⟨.warn, 0, false⟩ none 6).outcome = .done ⟨5, [], some 0⟩ := by rfl

end Program

end ArchSpec
