import ArchSpec.Check.Finding

/-!
# Tables of subprograms

A table is filled by adding programs to it one after the other.  What counts of
it is which subprogram a name finds: the last one that the last program declares
under the name, and otherwise what was found before.  So to add a program is to
lay its own table over the one that there was.
-/

namespace ArchSpec

namespace Table

/-- Of the subprograms with one name the last one counts, and then the table. -/
theorem get?_foldl_add (table : Table) (decls : List Subprogram) (name : String) :
    Named.get? (decls.foldl add table) name =
      (decls.reverse.find? fun decl => decl.name = name).or (Named.get? table name) := by
  induction decls generalizing table with
  | nil => rfl
  | cons decl rest ih =>
      rw [List.foldl_cons, ih, List.reverse_cons, List.find?_append, Option.or_assoc, add,
        Named.get?_insert]
      by_cases hname : decl.name = name
      · rw [List.find?_cons_of_pos (by simpa using hname), if_pos hname, Option.some_or]
      · rw [List.find?_cons_of_neg (by simpa using hname), if_neg hname, List.find?_nil,
          Option.none_or]

/-- In the table of a program the last declaration of a name counts. -/
theorem get?_table (program : Program) (name : String) :
    Named.get? program.table name =
      program.subprograms.reverse.find? fun decl => decl.name = name := by
  rw [Program.table, addAll, get?_foldl_add, Named.get?, Option.or_none]

/-- The table of a program is laid over the one to which it is added. -/
theorem get?_addAll (table : Table) (program : Program) (name : String) :
    Named.get? (table.addAll program) name =
      (Named.get? program.table name).or (Named.get? table name) := by
  rw [addAll, get?_foldl_add, get?_table]

/-- Only declared subprograms are in the table of a program. -/
theorem mem_of_get? {program : Program} {name : String} {decl : Subprogram}
    (hdecl : Named.get? program.table name = some decl) : decl ∈ program.subprograms := by
  rw [get?_table] at hdecl
  exact List.mem_reverse.mp (List.mem_of_find?_eq_some hdecl)

theorem get?_addAll_self (program : Program) :
    Named.get? (program.table.addAll program) = Named.get? program.table := by
  funext name
  rw [get?_addAll, Option.or_self]

/-- A program that is added a second time changes nothing. -/
theorem get?_addAll_addAll (table : Table) (program : Program) :
    Named.get? ((table.addAll program).addAll program) = Named.get? (table.addAll program) := by
  funext name
  rw [get?_addAll, get?_addAll, ← Option.or_assoc, Option.or_self]

end Table

end ArchSpec
