import ArchSpec.Proofs.Relation.Variables
import ArchSpec.Proofs.Targets.Path
import ArchSpec.Eval.Call

/-!
# How often indices are evaluated

To assign a part of a place, the place is read and then assigned, and both
evaluate the indices of the place.  So the index list of a slice is evaluated once
for every slice around it, to read the slice, and once more to write it.  An
assignment evaluates every index once, and writes where it has read, only if no
slice is taken of a slice.
-/

namespace ArchSpec

open Eval

/-- One evaluation of an index list. -/
structure Visit where
  /-- The number of slices around the one with the list. -/
  level : Nat
  places : List (Value × Value)

/-- The level of an evaluation and the number of positions found. -/
def Visit.mark (visit : Visit) : Nat × Nat := (visit.level, visit.places.length)

/-- There are as many positions as slices. -/
theorem SliceExpr.length_of_evalAll {calls : Calls} {slices : List SliceExpr}
    {places : List (Value × Value)} {before : State}
    (heval : (SliceExpr.evalAll calls slices before).1 = .done places) :
    places.length = slices.length := by
  induction slices generalizing places before with
  | nil =>
      cases heval
      rfl
  | cons first rest ih =>
      rw [SliceExpr.evalAll] at heval
      obtain ⟨place, _, heval⟩ := Effect.bind_eq_done_iff.mp heval
      obtain ⟨others, hothers, heval⟩ := Effect.bind_eq_done_iff.mp heval
      cases heval
      rw [List.length_cons, List.length_cons, ih hothers]

namespace Target

/-- Reads a target with `level` slices around it, and lists the evaluations of
index lists. -/
def readVisits (calls : Calls) : Target → Nat → Eval (Value × List Visit)
  | .discard, _ => Effect.fault (.staticCheck "cannot read from a discarded location")
  | .var name, _ => do
      let value ← readVariable name
      return (value, [])
  | .field whole name, level => do
      let found ← whole.readVisits calls level
      let item ← Effect.lift (found.1.getField name)
      return (item, found.2)
  | .item whole index, level => do
      let found ← whole.readVisits calls level
      let item ← Effect.lift (found.1.getItem index.toNat)
      return (item, found.2)
  | .slice whole slices, level => do
      let places ← SliceExpr.evalAll calls slices
      let found ← whole.readVisits calls (level + 1)
      let part ← Effect.liftSized (Slice.read places found.1)
      return (part, ⟨level, places⟩ :: found.2)

/-- Assigns a target with `level` slices around it, and lists the evaluations of
index lists. -/
def assignVisits (calls : Calls) : Target → Nat → Value → Eval (List Visit)
  | .discard, _, _ => return []
  | .var name, _, value => do
      writeVariable name value
      return []
  | .field whole name, level, value => do
      let found ← whole.readVisits calls level
      let updated ← Effect.lift (found.1.setField name value)
      let visits ← whole.assignVisits calls level updated
      return found.2 ++ visits
  | .item whole index, level, value => do
      let found ← whole.readVisits calls level
      let updated ← Effect.lift (found.1.setItem index.toNat value)
      let visits ← whole.assignVisits calls level updated
      return found.2 ++ visits
  | .slice whole slices, level, value => do
      let places ← SliceExpr.evalAll calls slices
      let found ← whole.readVisits calls (level + 1)
      let updated ← Effect.lift (Slice.write places value found.1)
      let visits ← whole.assignVisits calls (level + 1) updated
      return ⟨level, places⟩ :: found.2 ++ visits

variable (calls : Calls)

/-- To list the evaluations makes no difference to reading. -/
theorem read_eq_readVisits (target : Target) (level : Nat) :
    target.read calls = (do
      let found ← target.readVisits calls level
      return found.1) := by
  induction target generalizing level with
  | discard => rfl
  | var name =>
      rw [read, readVisits, Effect.bind_assoc]
      exact (Effect.bind_pure _).symm
  | field whole name ih =>
      rw [read, readVisits, ih level]
      simp only [Effect.bind_assoc, Effect.pure_bind, Effect.bind_pure]
  | item whole index ih =>
      rw [read, readVisits, ih level]
      simp only [Effect.bind_assoc, Effect.pure_bind, Effect.bind_pure]
  | slice whole slices ih =>
      rw [read, readVisits, ih (level + 1)]
      simp only [Effect.bind_assoc, Effect.pure_bind, Effect.bind_pure]

/-- To list the evaluations makes no difference to assigning. -/
theorem assign_eq_assignVisits (target : Target) (level : Nat) (value : Value) :
    target.assign calls value = (do
      let _ ← target.assignVisits calls level value
      return ()) := by
  induction target generalizing level value with
  | discard => rfl
  | var name =>
      rw [assign, assignVisits, Effect.bind_assoc]
      exact (Effect.bind_pure _).symm
  | field whole name ih =>
      simp only [assign, assignVisits, ih level, read_eq_readVisits calls whole level,
        Effect.bind_assoc, Effect.pure_bind]
  | item whole index ih =>
      simp only [assign, assignVisits, ih level, read_eq_readVisits calls whole level,
        Effect.bind_assoc, Effect.pure_bind]
  | slice whole slices ih =>
      simp only [assign, assignVisits, ih (level + 1), read_eq_readVisits calls whole (level + 1),
        Effect.bind_assoc, Effect.pure_bind]

/-! ## Levels -/

/-- The level and the length of each index list, the outermost one first. -/
def levels : Nat → List (List SliceExpr) → List (Nat × Nat)
  | _, [] => []
  | level, slices :: inner => (level, slices.length) :: levels (level + 1) inner

/-- The levels and lengths of the index lists in the order in which an assignment
evaluates them: all lists around the place, then again for the next place. -/
def passes : Nat → List (List SliceExpr) → List (Nat × Nat)
  | _, [] => []
  | level, slices :: inner =>
      (level, slices.length) :: levels (level + 1) inner ++ passes (level + 1) inner

variable {target : Target} {level depth : Nat} {indices : List (List SliceExpr)} {mark : Nat × Nat}
variable {found : Value × List Visit} {value : Value} {visits : List Visit} {before : State}

theorem of_mem_levels (hmark : mark ∈ levels level indices) :
    level ≤ mark.1 ∧ ∃ slices ∈ indices, mark.2 = slices.length := by
  induction indices generalizing level with
  | nil => nomatch hmark
  | cons slices inner ih =>
      rcases List.mem_cons.mp hmark with rfl | hinner
      · exact ⟨Nat.le_refl level, slices, List.mem_cons_self .., rfl⟩
      · obtain ⟨hlevel, other, hother, hlength⟩ := ih hinner
        exact ⟨by omega, other, List.mem_cons_of_mem _ hother, hlength⟩

theorem of_mem_passes (hmark : mark ∈ passes level indices) :
    level ≤ mark.1 ∧ ∃ slices ∈ indices, mark.2 = slices.length := by
  induction indices generalizing level with
  | nil => nomatch hmark
  | cons slices inner ih =>
      rcases List.mem_append.mp hmark with hread | hinner
      · have hlevels : mark ∈ levels level (slices :: inner) := hread
        exact of_mem_levels hlevels
      · obtain ⟨hlevel, other, hother, hlength⟩ := ih hinner
        exact ⟨by omega, other, List.mem_cons_of_mem _ hother, hlength⟩

/-- Whoever reads a place evaluates each of its index lists once. -/
theorem count_levels (level : Nat) (hdepth : depth < indices.length) :
    (levels level indices).countP (fun mark => mark.1 = level + depth) = 1 := by
  induction indices generalizing level depth with
  | nil => simp at hdepth
  | cons slices inner ih =>
      rw [levels, List.countP_cons]
      cases depth with
      | zero =>
          have hinner : (levels (level + 1) inner).countP (fun mark => mark.1 = level + 0) = 0 := by
            rw [List.countP_eq_zero]
            intro mark hmark
            have hlevel := (of_mem_levels hmark).1
            simp only [decide_eq_true_eq]
            omega
          rw [hinner, if_pos (by simp)]
      | succ depth =>
          have hinner := ih (level + 1) (Nat.lt_of_succ_lt_succ hdepth)
          have hplace : level + 1 + depth = level + (depth + 1) := by omega
          rw [hplace] at hinner
          simp [hinner]

/-- Whoever assigns a place reads all places around it, the outermost one first. -/
theorem count_passes (level : Nat) (hdepth : depth < indices.length) :
    (passes level indices).countP (fun mark => mark.1 = level + depth) = depth + 1 := by
  induction indices generalizing level depth with
  | nil => simp at hdepth
  | cons slices inner ih =>
      rw [passes, List.countP_append]
      have hread := count_levels level hdepth
      rw [levels] at hread
      rw [hread]
      cases depth with
      | zero =>
          have hinner : (passes (level + 1) inner).countP (fun mark => mark.1 = level + 0) = 0 := by
            rw [List.countP_eq_zero]
            intro mark hmark
            have hlevel := (of_mem_passes hmark).1
            simp only [decide_eq_true_eq]
            omega
          rw [hinner]
      | succ depth =>
          have hinner := ih (level + 1) (Nat.lt_of_succ_lt_succ hdepth)
          have hplace : level + 1 + depth = level + (depth + 1) := by omega
          rw [hplace] at hinner
          omega

/-! ## Evaluations of a completed assignment -/

/-- What is read through a slice is a bit vector. -/
theorem eq_bits_of_readVisits (hread : (target.readVisits calls level before).1 = .done found)
    (hindices : target.indices ≠ []) : ∃ bits, found.1 = .bits bits := by
  induction target generalizing level before found with
  | discard | var => exact (hindices rfl).elim
  | field whole name ih =>
      obtain ⟨whole, hwhole, hread⟩ := Effect.bind_eq_done_iff.mp hread
      obtain ⟨item, hitem, _⟩ := Effect.bind_eq_done_iff.mp hread
      obtain ⟨bits, hbits⟩ := ih hwhole hindices
      rw [hbits] at hitem
      nomatch hitem
  | item whole index ih =>
      obtain ⟨whole, hwhole, hread⟩ := Effect.bind_eq_done_iff.mp hread
      obtain ⟨item, hitem, _⟩ := Effect.bind_eq_done_iff.mp hread
      obtain ⟨bits, hbits⟩ := ih hwhole hindices
      rw [hbits] at hitem
      nomatch hitem
  | slice whole slices ih =>
      obtain ⟨places, _, hread⟩ := Effect.bind_eq_done_iff.mp hread
      obtain ⟨whole, _, hread⟩ := Effect.bind_eq_done_iff.mp hread
      obtain ⟨part, hpart, hread⟩ := Effect.bind_eq_done_iff.mp hread
      cases hread
      have hsized := Option.join_eq_some_iff.mp (Effect.liftSized_eq_done_iff.mp hpart)
      exact Slice.eq_bits_of_read (toOption_eq_some_iff.mp hsized)

/-- No slice stands inside a place that has fields or items. -/
theorem indices_eq_nil (hread : (target.readVisits calls level before).1 = .done found)
    (hbits : ∀ bits, found.1 ≠ .bits bits) : target.indices = [] := by
  by_cases hindices : target.indices = []
  · exact hindices
  · obtain ⟨bits, hfound⟩ := eq_bits_of_readVisits calls hread hindices
    exact (hbits bits hfound).elim

theorem marks_of_readVisits (hread : (target.readVisits calls level before).1 = .done found) :
    found.2.map Visit.mark = levels level target.indices := by
  induction target generalizing level before found with
  | discard => nomatch hread
  | var name =>
      obtain ⟨value, _, hread⟩ := Effect.bind_eq_done_iff.mp hread
      cases hread
      rfl
  | field whole name ih =>
      obtain ⟨inner, hinner, hread⟩ := Effect.bind_eq_done_iff.mp hread
      obtain ⟨item, _, hread⟩ := Effect.bind_eq_done_iff.mp hread
      cases hread
      have hmarks := ih hinner
      exact hmarks
  | item whole index ih =>
      obtain ⟨inner, hinner, hread⟩ := Effect.bind_eq_done_iff.mp hread
      obtain ⟨item, _, hread⟩ := Effect.bind_eq_done_iff.mp hread
      cases hread
      have hmarks := ih hinner
      exact hmarks
  | slice whole slices ih =>
      obtain ⟨places, hplaces, hread⟩ := Effect.bind_eq_done_iff.mp hread
      obtain ⟨inner, hinner, hread⟩ := Effect.bind_eq_done_iff.mp hread
      obtain ⟨part, _, hread⟩ := Effect.bind_eq_done_iff.mp hread
      cases hread
      rw [List.map_cons, ih hinner, Visit.mark, SliceExpr.length_of_evalAll hplaces]
      rfl

/-- The wholes of a completed assignment are read one after the other, each with
all slices inside it. -/
theorem marks_of_assignVisits
    (hassign : (target.assignVisits calls level value before).1 = .done visits) :
    visits.map Visit.mark = passes level target.indices := by
  induction target generalizing level value before visits with
  | discard =>
      cases hassign
      rfl
  | var name =>
      obtain ⟨_, _, hassign⟩ := Effect.bind_eq_done_iff.mp hassign
      cases hassign
      rfl
  | field whole name ih =>
      obtain ⟨inner, hinner, hassign⟩ := Effect.bind_eq_done_iff.mp hassign
      obtain ⟨updated, hupdated, hassign⟩ := Effect.bind_eq_done_iff.mp hassign
      obtain ⟨rest, hrest, hassign⟩ := Effect.bind_eq_done_iff.mp hassign
      cases hassign
      have hindices : whole.indices = [] := by
        apply indices_eq_nil calls hinner
        intro bits hbits
        rw [hbits] at hupdated
        nomatch hupdated
      rw [List.map_append, marks_of_readVisits calls hinner, ih hrest, indices, hindices]
      rfl
  | item whole index ih =>
      obtain ⟨inner, hinner, hassign⟩ := Effect.bind_eq_done_iff.mp hassign
      obtain ⟨updated, hupdated, hassign⟩ := Effect.bind_eq_done_iff.mp hassign
      obtain ⟨rest, hrest, hassign⟩ := Effect.bind_eq_done_iff.mp hassign
      cases hassign
      have hindices : whole.indices = [] := by
        apply indices_eq_nil calls hinner
        intro bits hbits
        rw [hbits] at hupdated
        nomatch hupdated
      rw [List.map_append, marks_of_readVisits calls hinner, ih hrest, indices, hindices]
      rfl
  | slice whole slices ih =>
      obtain ⟨places, hplaces, hassign⟩ := Effect.bind_eq_done_iff.mp hassign
      obtain ⟨inner, hinner, hassign⟩ := Effect.bind_eq_done_iff.mp hassign
      obtain ⟨updated, _, hassign⟩ := Effect.bind_eq_done_iff.mp hassign
      obtain ⟨rest, hrest, hassign⟩ := Effect.bind_eq_done_iff.mp hassign
      cases hassign
      rw [List.map_append, List.map_cons, marks_of_readVisits calls hinner, ih hrest, Visit.mark,
        SliceExpr.length_of_evalAll hplaces]
      rfl

/-- A completed assignment evaluates an index list once more than there are slices
around it. -/
theorem count_of_assignVisits
    (hassign : (target.assignVisits calls 0 value before).1 = .done visits)
    (hdepth : depth < target.indices.length) :
    visits.countP (fun visit => visit.level = depth) = depth + 1 := by
  have hcount := count_passes 0 hdepth
  rw [← marks_of_assignVisits calls hassign, List.countP_map, Nat.zero_add] at hcount
  exact hcount

/-! ## Once -/

/-- Each index list is evaluated once, and so the positions that are read are those
that are written.  A list without slices has no index and no position. -/
structure EvaluatedOnce (target : Target) (visits : List Visit) : Prop where
  once : ∀ depth slices, target.indices[depth]? = some slices → slices ≠ [] →
    visits.countP (fun visit => visit.level = depth) = 1
  same : ∀ first ∈ visits, ∀ second ∈ visits, first.level = second.level →
    first.places = second.places

/-- An evaluation of an inner list has no positions if all inner lists are empty. -/
theorem places_eq_nil (hassign : (target.assignVisits calls 0 value before).1 = .done visits)
    (hempty : ∀ slices ∈ target.indices.tail, slices = []) {visit : Visit} (hvisit : visit ∈ visits)
    (hlevel : visit.level ≠ 0) : visit.places = [] := by
  have hmark : visit.mark ∈ passes 0 target.indices := by
    rw [← marks_of_assignVisits calls hassign]
    exact List.mem_map_of_mem hvisit
  have hinner : ∃ slices ∈ target.indices.tail, visit.mark.2 = slices.length := by
    cases hindices : target.indices with
    | nil =>
        rw [hindices] at hmark
        nomatch hmark
    | cons slices inner =>
        rw [hindices, passes, List.cons_append] at hmark
        rcases List.mem_cons.mp hmark with hhead | htail
        · exact (hlevel (congrArg Prod.fst hhead)).elim
        · rcases List.mem_append.mp htail with hread | hrest
          · exact (of_mem_levels hread).2
          · exact (of_mem_passes hrest).2
  obtain ⟨slices, hslices, hlength⟩ := hinner
  rw [hempty slices hslices] at hlength
  exact List.eq_nil_of_length_eq_zero hlength

/-- If all inner lists are empty, then only the outermost one has indices. -/
theorem evaluatedOnce_of_empty
    (hassign : (target.assignVisits calls 0 value before).1 = .done visits)
    (hempty : ∀ slices ∈ target.indices.tail, slices = []) : EvaluatedOnce target visits := by
  constructor
  · intro depth slices hslices hnonempty
    obtain ⟨hdepth, _⟩ := List.getElem?_eq_some_iff.mp hslices
    rw [count_of_assignVisits calls hassign hdepth]
    cases depth with
    | zero => rfl
    | succ depth =>
        rw [← List.getElem?_tail] at hslices
        exact (hnonempty (hempty slices (List.mem_of_getElem? hslices))).elim
  · intro first hfirst second hsecond hlevel
    by_cases houter : first.level = 0
    · have hindices : 0 < target.indices.length := by
        rw [List.length_pos_iff]
        intro hnil
        have hmarks := marks_of_assignVisits calls hassign
        rw [hnil, passes, List.map_eq_nil_iff] at hmarks
        rw [hmarks] at hfirst
        nomatch hfirst
      have hcount := count_of_assignVisits calls hassign hindices
      rw [List.countP_eq_length_filter] at hcount
      obtain ⟨only, honly⟩ := List.length_eq_one_iff.mp hcount
      have hmem : ∀ visit ∈ visits, visit.level = 0 → visit = only := by
        intro visit hvisit hzero
        rw [← List.mem_singleton, ← honly]
        exact List.mem_filter.mpr ⟨hvisit, decide_eq_true hzero⟩
      rw [hmem first hfirst houter, hmem second hsecond (hlevel ▸ houter)]
    · rw [places_eq_nil calls hassign hempty hfirst houter,
        places_eq_nil calls hassign hempty hsecond (hlevel ▸ houter)]

end Target

/-- Executes an assignment and lists the evaluations of index lists. -/
def Stmt.assignVisits (context : Context) (target : Target) (value : Expr) : Eval (List Visit) := do
  let value ← value.eval context.calls
  target.assignVisits context.calls 0 value

theorem Stmt.exec_assign_eq (context : Context) (target : Target) (value : Expr) :
    (Stmt.assign target value).exec context = (do
      let _ ← Stmt.assignVisits context target value
      return .next) := by
  simp only [Stmt.exec, Stmt.assignVisits, Target.assign_eq_assignVisits context.calls target 0,
    Effect.bind_assoc, Effect.pure_bind]

/-- A completed assignment evaluates every index list of its target once, and
writes at the positions that it has read, exactly if there is no index in a slice
that another slice is taken of. -/
theorem Stmt.evaluatedOnce_iff (context : Context) (target : Target) (value : Expr)
    (before : State) :
    (∀ visits, (Stmt.assignVisits context target value before).1 = .done visits →
      target.EvaluatedOnce visits) ↔
    (((Stmt.assign target value).exec context before).1 = .done .next →
      ∀ slices ∈ target.indices.tail, slices = []) := by
  rw [Stmt.exec_assign_eq]
  constructor
  · intro honce hdone slices hslices
    obtain ⟨visits, hvisits, _⟩ := Effect.bind_eq_done_iff.mp hdone
    obtain ⟨assigned, _, hassign⟩ := Effect.bind_eq_done_iff.mp hvisits
    obtain ⟨depth, hdepth, hget⟩ := List.mem_iff_getElem.mp hslices
    by_cases hempty : slices = []
    · exact hempty
    · have hinner : target.indices[depth + 1]? = some slices := by
        rw [← List.getElem?_tail, List.getElem?_eq_getElem hdepth, hget]
      obtain ⟨hbound, _⟩ := List.getElem?_eq_some_iff.mp hinner
      have htwice := Target.count_of_assignVisits context.calls hassign hbound
      rw [(honce visits hvisits).once (depth + 1) slices hinner hempty] at htwice
      omega
  · intro hempty visits hvisits
    obtain ⟨assigned, _, hassign⟩ := Effect.bind_eq_done_iff.mp hvisits
    exact Target.evaluatedOnce_of_empty context.calls hassign
      (hempty (Effect.bind_eq_done_iff.mpr ⟨visits, hvisits, rfl⟩))

/-- Counts its calls in a global variable and returns the count. -/
def Subprogram.counting : Subprogram :=
  .ofFunction "next" [] .integer (.block
    [.assign (.var "n") (.binary .add (.var "n") (.literal (.int 1))), .ret (some (.var "n"))])

/-- The one bit of a slice of one bit, whose place is the count. -/
def Target.countedBit : Target :=
  .slice (.slice (.var "x") [.single (.call "next" [])]) [.single (.literal (.int 0))]

/-- The count is zero, and bit 1 of four bits is set. -/
def State.beforeCounting : State :=
  (State.start false).onStorage fun storage =>
    (storage.declareGlobal "n" (.int 0)).declareGlobal "x" (.bits ⟨4, 2⟩)

/-- To set a bit that is set already counts twice, and so it reads bit 1 but sets
bit 2. -/
theorem Stmt.not_evaluatedOnce :
    ∃ visits after, Stmt.assignVisits
        ⟨Eval.callWithin (Named.get? [("next", Subprogram.counting)]) 0 1, 0, 0⟩
        Target.countedBit (.literal (.bits "1")) .beforeCounting = (.done visits, after) ∧
      ¬Target.countedBit.EvaluatedOnce visits ∧
      after.storage.globals = [("n", .int 2), ("x", .bits ⟨4, 6⟩)] := by
  refine ⟨_, _, rfl, ?_, rfl⟩
  intro honce
  have hcount : 2 = 1 := honce.once 1 [.single (.call "next" [])] rfl nofun
  nomatch hcount

end ArchSpec
