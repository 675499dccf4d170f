import ArchSpec.Check.CallSite
import ArchSpec.Program.Stmt

/-!
# Variables of expressions

The names that an expression reads, in the order of the text, and those that
the indices of a target read.  An expression without calls has no call sites,
so these names are all that its value can depend on.
-/

namespace ArchSpec

mutual

/-- The variables that occur in an expression. -/
def Expr.variables : Expr → List String
  | .literal _ => []
  | .var name => [name]
  | .binary _ left right => left.variables ++ right.variables
  | .unary _ operand => operand.variables
  | .call _ args => Expr.allVariables args
  | .slice source slices => source.variables ++ SliceExpr.allVariables slices
  | .concat items => Expr.allVariables items
  | .cond test yes no => test.variables ++ yes.variables ++ no.variables
  | .tuple items => Expr.allVariables items
  | .item source _ => source.variables
  | .record fields => Expr.fieldsVariables fields
  | .field source _ => source.variables
  | .exception _ fields => Expr.fieldsVariables fields

def Expr.allVariables : List Expr → List String
  | [] => []
  | first :: rest => first.variables ++ Expr.allVariables rest

def Expr.fieldsVariables : List (String × Expr) → List String
  | [] => []
  | (_, first) :: rest => first.variables ++ Expr.fieldsVariables rest

def SliceExpr.variables : SliceExpr → List String
  | .single index => index.variables
  | .range high low => high.variables ++ low.variables
  | .length start length => start.variables ++ length.variables

def SliceExpr.allVariables : List SliceExpr → List String
  | [] => []
  | first :: rest => first.variables ++ SliceExpr.allVariables rest

end

namespace Target

/-- The variable that is finally written, if there is one. -/
def root? : Target → Option String
  | .discard => none
  | .var name => some name
  | .slice whole _ => whole.root?
  | .field whole _ => whole.root?
  | .item whole _ => whole.root?

/-- The index lists of the slices, the outermost one first. -/
def indices : Target → List (List SliceExpr)
  | .discard => []
  | .var _ => []
  | .slice whole slices => slices :: whole.indices
  | .field whole _ => whole.indices
  | .item whole _ => whole.indices

/-- The variables that the indices read. -/
def indexVariables (target : Target) : List String :=
  target.indices.flatMap SliceExpr.allVariables

/-- No index makes a call. -/
def CallFree (target : Target) : Prop :=
  ∀ slices ∈ target.indices, SliceExpr.allCallFree slices = true

instance (target : Target) : Decidable target.CallFree :=
  inferInstanceAs (Decidable (∀ slices ∈ target.indices, _))

end Target

/-! ## Expressions without calls -/

mutual

theorem Expr.calls_eq_nil : ∀ {expr : Expr}, expr.callFree = true → expr.calls = []
  | .literal _, _ => rfl
  | .var _, _ => rfl
  | .binary _ left right, hfree => by
      obtain ⟨hleft, hright⟩ := Bool.and_eq_true_iff.mp hfree
      rw [Expr.calls, left.calls_eq_nil hleft, right.calls_eq_nil hright, List.append_nil]
  | .unary _ operand, hfree => operand.calls_eq_nil hfree
  | .call .., hfree => nomatch hfree
  | .slice source slices, hfree => by
      obtain ⟨hsource, hslices⟩ := Bool.and_eq_true_iff.mp hfree
      rw [Expr.calls, source.calls_eq_nil hsource, SliceExpr.allCalls_eq_nil hslices,
        List.append_nil]
  | .concat _, hfree => Expr.allCalls_eq_nil hfree
  | .cond test yes no, hfree => by
      obtain ⟨hfirst, hno⟩ := Bool.and_eq_true_iff.mp hfree
      obtain ⟨htest, hyes⟩ := Bool.and_eq_true_iff.mp hfirst
      rw [Expr.calls, test.calls_eq_nil htest, yes.calls_eq_nil hyes, no.calls_eq_nil hno,
        List.append_nil, List.append_nil]
  | .tuple _, hfree => Expr.allCalls_eq_nil hfree
  | .item source _, hfree => source.calls_eq_nil hfree
  | .record _, hfree => Expr.fieldsCalls_eq_nil hfree
  | .field source _, hfree => source.calls_eq_nil hfree
  | .exception _ _, hfree => Expr.fieldsCalls_eq_nil hfree

theorem Expr.allCalls_eq_nil : ∀ {exprs : List Expr}, Expr.allCallFree exprs = true →
    Expr.allCalls exprs = []
  | [], _ => rfl
  | first :: rest, hfree => by
      obtain ⟨hfirst, hrest⟩ := Bool.and_eq_true_iff.mp hfree
      rw [Expr.allCalls, first.calls_eq_nil hfirst, Expr.allCalls_eq_nil hrest, List.append_nil]

theorem Expr.fieldsCalls_eq_nil : ∀ {fields : List (String × Expr)},
    Expr.fieldsCallFree fields = true → Expr.fieldsCalls fields = []
  | [], _ => rfl
  | (_, first) :: rest, hfree => by
      obtain ⟨hfirst, hrest⟩ := Bool.and_eq_true_iff.mp hfree
      rw [Expr.fieldsCalls, first.calls_eq_nil hfirst, Expr.fieldsCalls_eq_nil hrest,
        List.append_nil]

theorem SliceExpr.calls_eq_nil : ∀ {slice : SliceExpr}, slice.callFree = true → slice.calls = []
  | .single index, hfree => index.calls_eq_nil hfree
  | .range high low, hfree => by
      obtain ⟨hhigh, hlow⟩ := Bool.and_eq_true_iff.mp hfree
      rw [SliceExpr.calls, high.calls_eq_nil hhigh, low.calls_eq_nil hlow, List.append_nil]
  | .length start length, hfree => by
      obtain ⟨hstart, hlength⟩ := Bool.and_eq_true_iff.mp hfree
      rw [SliceExpr.calls, start.calls_eq_nil hstart, length.calls_eq_nil hlength,
        List.append_nil]

theorem SliceExpr.allCalls_eq_nil : ∀ {slices : List SliceExpr},
    SliceExpr.allCallFree slices = true → SliceExpr.allCalls slices = []
  | [], _ => rfl
  | first :: rest, hfree => by
      obtain ⟨hfirst, hrest⟩ := Bool.and_eq_true_iff.mp hfree
      rw [SliceExpr.allCalls, first.calls_eq_nil hfirst, SliceExpr.allCalls_eq_nil hrest,
        List.append_nil]

end

end ArchSpec
