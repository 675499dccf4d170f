import ArchSpec.Proofs.Operands
import ArchSpec.Proofs.WellFormed

/-!
# Default values

A type without an initialiser has a default value if nothing that it consists of
stands in the way: no exception, no type that is defined elsewhere, no field name
twice, and no width that is not a size.  The default value is as deep as the type,
and zero everywhere.  To find it reads variables and changes none, as long as the
widths make no calls, so all widths are evaluated on the same variables.
-/

namespace ArchSpec

open Eval

mutual

/-- A type and all types that it consists of. -/
def Ty.parts : Ty → List Ty
  | .integer => [.integer]
  | .boolean => [.boolean]
  | .bits width => [.bits width]
  | .string => [.string]
  | .tuple items => .tuple items :: Ty.allParts items
  | .record fields => .record fields :: Ty.fieldsParts fields
  | .exception fields => .exception fields :: Ty.fieldsParts fields
  | .named name => [.named name]

def Ty.allParts : List Ty → List Ty
  | [] => []
  | first :: rest => first.parts ++ Ty.allParts rest

def Ty.fieldsParts : List (String × Ty) → List Ty
  | [] => []
  | (_, first) :: rest => first.parts ++ Ty.fieldsParts rest

end

section Specification

variable (calls : Calls) (before : State)

/-- The expression has the value of a size. -/
def Expr.HasSize (width : Expr) (size : Nat) : Prop :=
  (width.eval calls before).1 = .done (.int size) ∧ size < Size.bound

/-- A part of a type does not stand in the way of a default value. -/
def Ty.Supported : Ty → Prop
  | .integer | .boolean | .string | .tuple _ => True
  | .bits width => ∃ size, width.HasSize calls before size
  | .record fields => (Named.names fields).Nodup
  | .exception _ | .named _ => False

/-- The value has the shape of a type at every depth, and is zero everywhere. -/
inductive Ty.Zero : Ty → Value → Prop where
  | integer : Zero .integer (.int 0)
  | boolean : Zero .boolean (.bool false)
  | bits {width : Expr} {size : Nat} (hsize : width.HasSize calls before size) :
      Zero (.bits width) (.bits (Bits.zeros size))
  | string : Zero .string (.str "")
  | tuple {items : List Ty} {values : List Value} (hitems : List.Forall₂ Zero items values) :
      Zero (.tuple items) (.tuple values)
  | record {fields : Named Ty} {values : Named Value}
      (hnames : Named.names values = Named.names fields)
      (hfields : List.Forall₂ Zero (fields.map Prod.snd) (values.map Prod.snd)) :
      Zero (.record fields) (.record values)

end Specification

/-! ## What a value has to be -/

namespace Value

theorem zeros_eq_ok_iff {width zero : Value} :
    width.zeros = .ok zero ↔
      ∃ size : Nat, width = .int size ∧ size < Size.bound ∧ zero = .bits (Bits.zeros size) := by
  constructor
  · intro hzeros
    obtain ⟨size, hsize, hzero⟩ := bind_eq_ok_iff.mp hzeros
    cases width with
    | int n =>
        rw [asSize_int] at hsize
        cases hfound : Size.ofInt? n with
        | none =>
            rw [hfound] at hsize
            nomatch hsize
        | some found =>
            rw [hfound] at hsize
            cases hsize
            cases hzero
            obtain ⟨rfl, hbound⟩ := Size.ofInt?_eq_some_iff.mp hfound
            exact ⟨size, rfl, hbound, rfl⟩
    | bool | bits | str | tuple | record | exception => nomatch hsize
  · rintro ⟨size, rfl, hbound, rfl⟩
    have hsize : Size.ofInt? (size : Int) = some size :=
      Size.ofInt?_eq_some_iff.mpr ⟨rfl, hbound⟩
    rw [zeros, asSize_int, hsize]
    rfl

theorem makeRecord_eq_ok_iff {fields : Named Value} {value : Value} :
    makeRecord fields = .ok value ↔ (Named.names fields).Nodup ∧ value = .record fields := by
  rw [makeRecord, checkDistinct, ← Named.repeats_eq_nil_iff]
  cases Named.repeats fields.names with
  | nil =>
      constructor
      · rintro ⟨⟩
        exact ⟨rfl, rfl⟩
      · rintro ⟨_, rfl⟩
        rfl
  | cons first rest =>
      constructor
      · rintro ⟨⟩
      · rintro ⟨⟨⟩, _⟩

end Value

/-! ## Computations that have a value under a condition -/

namespace Eval

variable {α β : Type}

/-- A computation that began in a state has recorded accesses at most.  It has a
value, as asked, exactly under a condition, and otherwise has ended by a fault or an
overflow. -/
structure EndsOn (condition : Prop) (Q : α → Prop) (before : State) (run : Outcome α × State) :
    Prop where
  quiet : before.Quiet run.2
  answers : run.1.Answers Q
  done_iff : (∃ value, run.1 = .done value) ↔ condition

/-- So it is after any accesses. -/
def Yields (before : State) (condition : Prop) (Q : α → Prop) (body : Eval α) : Prop :=
  ∀ between, before.Quiet between → EndsOn condition Q between (body between)

namespace Yields

variable {before : State} {P P' : Prop} {Q : α → Prop} {Q' : β → Prop} {body : Eval α}

theorem of_iff (hbody : Yields before P Q body) (hcondition : P ↔ P') : Yields before P' Q body :=
  fun between hbetween =>
    have hend := hbody between hbetween
    { hend with done_iff := hend.done_iff.trans hcondition }

theorem ret {value : α} (hvalue : Q value) : Yields before True Q (pure value : Eval α) :=
  fun between _ => ⟨.refl between, hvalue, iff_of_true ⟨value, rfl⟩ trivial⟩

theorem fault {cause : Fault} : Yields before False Q (Effect.fault cause) :=
  fun between _ => ⟨.refl between, trivial, iff_of_false nofun id⟩

theorem lift {result : Except Fault α} (hvalue : ∀ value, result = .ok value → Q value) :
    Yields before (∃ value, result = .ok value) Q (Effect.lift result) := by
  cases result with
  | ok value => exact (ret (hvalue value rfl)).of_iff (iff_of_true trivial ⟨value, rfl⟩)
  | error cause => exact fault.of_iff (iff_of_false id nofun)

theorem bind {next : α → Eval β} (hbody : Yields before P Q body)
    (hnext : ∀ value, Q value → Yields before P' Q' (next value)) :
    Yields before (P ∧ P') Q' (body >>= next) := by
  intro between hbetween
  have hend := hbody between hbetween
  change EndsOn (P ∧ P') Q' between (Effect.bind body next between)
  rw [Effect.bind]
  rcases hrun : body between with ⟨outcome, after⟩
  rw [hrun] at hend
  cases outcome with
  | done value =>
      have hlast := hnext value hend.answers after (hbetween.trans hend.quiet)
      have hvalue : P := hend.done_iff.mp ⟨value, rfl⟩
      exact ⟨hend.quiet.trans hlast.quiet, hlast.answers,
        hlast.done_iff.trans (and_iff_right hvalue).symm⟩
  | failed | overflowed =>
      have hundone : ¬P := fun hdone => by simpa using hend.done_iff.mpr hdone
      exact ⟨hend.quiet, trivial, iff_of_false (by simp) fun hboth => hundone hboth.1⟩
  | thrown | exhausted => exact hend.answers.elim

theorem map {f : α → β} (hbody : Yields before P Q body)
    (hvalue : ∀ value, Q value → Q' (f value)) :
    Yields before P Q' (body >>= fun value => pure (f value)) :=
  (hbody.bind fun value hold => ret (hvalue value hold)).of_iff (and_iff_left trivial)

/-- What only reads has the value that it had before the accesses. -/
theorem of_observes {Q : α → Prop} (hbody : Observes Q body) :
    Yields before (∃ value, (body before).1 = .done value)
      (fun value => (body before).1 = .done value) body := by
  intro between hbetween
  obtain ⟨outcome, events, hanswers, hrun⟩ := hbody before
  rw [hrun between hbetween, hrun before (.refl before)]
  refine ⟨.noteAll between events, ?_, .rfl⟩
  cases outcome with
  | done value => exact rfl
  | failed | overflowed => trivial
  | thrown | exhausted => exact hanswers.elim

end Yields

end Eval

/-! ## Default values -/

section Defaults

variable {calls : Calls} {before : State}

/-- If a width has a value that is a size, then there is a vector of that size. -/
theorem Ty.yields_zeros {width : Expr} {value : Value}
    (hvalue : (width.eval calls before).1 = .done value) :
    Yields before (∃ size, width.HasSize calls before size) (Ty.Zero calls before (.bits width))
      (Effect.lift value.zeros) := by
  refine (Yields.lift ?_).of_iff ⟨?_, ?_⟩
  · intro zero hzero
    obtain ⟨size, rfl, hbound, rfl⟩ := Value.zeros_eq_ok_iff.mp hzero
    exact .bits ⟨hvalue, hbound⟩
  · rintro ⟨zero, hzero⟩
    obtain ⟨size, rfl, hbound, rfl⟩ := Value.zeros_eq_ok_iff.mp hzero
    exact ⟨size, hvalue, hbound⟩
  · rintro ⟨size, hsize, hbound⟩
    rw [hvalue] at hsize
    cases hsize
    exact ⟨_, Value.zeros_eq_ok_iff.mpr ⟨size, rfl, hbound, rfl⟩⟩

/-- If the fields have distinct names, then their values are a record. -/
theorem Ty.yields_makeRecord {fields : Named Ty} {values : Named Value}
    (hnames : Named.names values = Named.names fields)
    (hfields : List.Forall₂ (Ty.Zero calls before) (fields.map Prod.snd) (values.map Prod.snd)) :
    Yields before (Named.names fields).Nodup (Ty.Zero calls before (.record fields))
      (Effect.lift (Value.makeRecord values)) := by
  refine (Yields.lift ?_).of_iff ?_
  · intro value hvalue
    obtain ⟨_, rfl⟩ := Value.makeRecord_eq_ok_iff.mp hvalue
    exact .record hnames hfields
  · simp only [Value.makeRecord_eq_ok_iff, hnames, exists_and_left, exists_eq, and_true]

mutual

theorem Ty.yields_default : ∀ ty : Ty,
    (∀ width, .bits width ∈ ty.parts → width.callFree = true) →
    Yields before (∀ part ∈ ty.parts, part.Supported calls before) (ty.Zero calls before)
      (ty.default calls)
  | .integer, _ => by
      simp only [Ty.default, Ty.parts, List.forall_mem_singleton, Ty.Supported]
      exact .ret .integer
  | .boolean, _ => by
      simp only [Ty.default, Ty.parts, List.forall_mem_singleton, Ty.Supported]
      exact .ret .boolean
  | .bits width, hfree => by
      simp only [Ty.default, Ty.parts, List.forall_mem_singleton, Ty.Supported]
      have hobserves := Expr.observes calls (hfree width (List.mem_singleton_self _))
      refine ((Yields.of_observes hobserves).bind fun value hvalue =>
        Ty.yields_zeros hvalue).of_iff (and_iff_right_of_imp ?_)
      rintro ⟨size, hsize, _⟩
      exact ⟨_, hsize⟩
  | .string, _ => by
      simp only [Ty.default, Ty.parts, List.forall_mem_singleton, Ty.Supported]
      exact .ret .string
  | .tuple items, hfree => by
      simp only [Ty.default, Ty.parts, List.forall_mem_cons, Ty.Supported, true_and]
      have hitems := Ty.yields_defaultAll items fun width hmem =>
        hfree width (List.mem_cons_of_mem _ hmem)
      exact hitems.map fun values hvalues => .tuple hvalues
  | .record fields, hfree => by
      simp only [Ty.default, Ty.parts, List.forall_mem_cons, Ty.Supported]
      have hfields := Ty.yields_defaultFields fields fun width hmem =>
        hfree width (List.mem_cons_of_mem _ hmem)
      -- the names are compared last, when all fields have their values
      exact (hfields.bind fun values hvalues =>
        Ty.yields_makeRecord hvalues.1 hvalues.2).of_iff and_comm
  | .exception fields, _ => by
      simp only [Ty.default, Ty.parts, List.forall_mem_cons, Ty.Supported, false_and]
      exact .fault
  | .named name, _ => by
      simp only [Ty.default, Ty.parts, List.forall_mem_singleton, Ty.Supported]
      exact .fault

theorem Ty.yields_defaultAll : ∀ types : List Ty,
    (∀ width, .bits width ∈ Ty.allParts types → width.callFree = true) →
    Yields before (∀ part ∈ Ty.allParts types, part.Supported calls before)
      (List.Forall₂ (Ty.Zero calls before) types) (Ty.defaultAll calls types)
  | [], _ => by
      simp only [Ty.defaultAll, Ty.allParts]
      exact (Yields.ret .nil).of_iff (iff_of_true trivial (List.forall_mem_nil _))
  | first :: rest, hfree => by
      simp only [Ty.defaultAll, Ty.allParts, List.forall_mem_append]
      have hfirst := first.yields_default fun width hmem =>
        hfree width (List.mem_append_left _ hmem)
      have hrest := Ty.yields_defaultAll rest fun width hmem =>
        hfree width (List.mem_append_right _ hmem)
      exact hfirst.bind fun value hvalue => hrest.map fun values hvalues => .cons hvalue hvalues

theorem Ty.yields_defaultFields : ∀ fields : List (String × Ty),
    (∀ width, .bits width ∈ Ty.fieldsParts fields → width.callFree = true) →
    Yields before (∀ part ∈ Ty.fieldsParts fields, part.Supported calls before)
      (fun values => Named.names values = Named.names fields ∧
        List.Forall₂ (Ty.Zero calls before) (fields.map Prod.snd) (values.map Prod.snd))
      (Ty.defaultFields calls fields)
  | [], _ => by
      simp only [Ty.defaultFields, Ty.fieldsParts]
      exact (Yields.ret ⟨rfl, .nil⟩).of_iff (iff_of_true trivial (List.forall_mem_nil _))
  | (name, first) :: rest, hfree => by
      simp only [Ty.defaultFields, Ty.fieldsParts, List.forall_mem_append]
      have hfirst := first.yields_default fun width hmem =>
        hfree width (List.mem_append_left _ hmem)
      have hrest := Ty.yields_defaultFields rest fun width hmem =>
        hfree width (List.mem_append_right _ hmem)
      exact hfirst.bind fun value hvalue => hrest.map fun values hvalues =>
        ⟨congrArg (name :: ·) hvalues.1, .cons hvalue hvalues.2⟩

end

end Defaults

/-- If the widths in a type make no calls, then it has a default value exactly if all
its parts are supported, and otherwise there is a fault or an overflow.  The default
value has the shape of the type and is zero everywhere, and no variable is changed. -/
theorem Ty.default_zero (calls : Calls) (ty : Ty)
    (hfree : ∀ width, .bits width ∈ ty.parts → width.callFree = true) (before : State) :
    ((∃ value, (ty.default calls before).1 = .done value) ↔
      ∀ part ∈ ty.parts, part.Supported calls before) ∧
    (ty.default calls before).1.Answers (ty.Zero calls before) ∧
    before.Quiet (ty.default calls before).2 := by
  obtain ⟨hquiet, hanswers, hdone⟩ : EndsOn (∀ part ∈ ty.parts, part.Supported calls before)
      (ty.Zero calls before) before (ty.default calls before) :=
    ty.yields_default hfree before (.refl before)
  exact ⟨hdone, hanswers, hquiet⟩

/-- A record with a tuple in it, and with a width that is a variable. -/
def Ty.packet : Ty :=
  .record [("body", .tuple [.integer, .bits (.var "x")]), ("note", .string)]

theorem default_packet :
    ∃ value, (Ty.packet.default .none .holding).1 = .done value ∧
      Ty.packet.Zero .none .holding value := by
  have hparts : Ty.packet.parts = [.packet, .tuple [.integer, .bits (.var "x")], .integer,
      .bits (.var "x"), .string] := rfl
  have hfree : ∀ width, .bits width ∈ Ty.packet.parts → width.callFree = true := by
    intro width hmem
    rw [hparts] at hmem
    obtain rfl : width = .var "x" := by simpa [Ty.packet] using hmem
    rfl
  obtain ⟨hiff, hanswers, _⟩ := Ty.default_zero .none .packet hfree .holding
  have hnames : ["body", "note"].Nodup := by decide
  have hsupported : ∀ part ∈ Ty.packet.parts, part.Supported .none .holding := by
    simp only [hparts, List.forall_mem_cons]
    exact ⟨hnames, trivial, trivial, ⟨6, rfl, by decide⟩, trivial, List.forall_mem_nil _⟩
  obtain ⟨value, hvalue⟩ := hiff.mpr hsupported
  rw [hvalue] at hanswers
  exact ⟨value, hvalue, hanswers⟩

end ArchSpec
