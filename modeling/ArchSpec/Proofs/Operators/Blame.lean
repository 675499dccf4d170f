import Mathlib.Tactic.Tauto
import ArchSpec.Data.Operator

/-!
# Blame

A mismatch carries an operand in print, and the shapes that the operation would
have accepted in its place.  Operands of the wrong kind or width are blamed for
what they are.  An exponent, a shift amount or a width that is too large for its
machine word is not: it is reported as no integer from zero up.
-/

namespace ArchSpec

namespace Shape

/-- The values that a shape describes. -/
def Accepts : Shape → Value → Prop
  | integer, .int _ => True
  | range low high, .int n => (∀ least ∈ low, least ≤ n) ∧ ∀ greatest ∈ high, n ≤ greatest
  | boolean, .bool _ => True
  | bits none, .bits _ => True
  | bits (some width), .bits b => b.width = width
  | string, .str _ => True
  | tuple, .tuple _ => True
  | record, .record _ => True
  | exception, .exception .. => True
  | _, _ => False

theorem natural_accepts_iff {n : Int} : natural.Accepts (.int n) ↔ 0 ≤ n := by
  simp [natural, Accepts]

/-- A shape without a range or a width describes the values of its kind. -/
theorem accepts_iff_sameKind {shape : Shape} {value : Value}
    (hshape : shape ∈ [integer, boolean, bits none, string]) :
    shape.Accepts value ↔ shape.sameKind value.shape = true := by
  simp only [List.mem_cons, List.not_mem_nil, or_false] at hshape
  rcases hshape with rfl | rfl | rfl | rfl <;> cases value <;>
    simp [Accepts, sameKind, Value.shape]

end Shape

/-- Negative integers are those that are printed with a sign. -/
theorem Value.minus_mem_print_iff {n : Int} : '-' ∈ (Value.int n).print.toList ↔ n < 0 := by
  rw [Value.print, Int.toString_eq_repr, Int.repr_eq_if]
  by_cases hn : 0 ≤ n
  · have hdigits : '-' ∉ Nat.toDigits 10 n.toNat := by
      intro hminus
      have hdigit := Nat.isDigit_of_mem_toDigits (by decide) (by decide) hminus
      exact absurd hdigit (by decide)
    rw [if_pos hn, Nat.repr_eq_ofList_toDigits, String.toList_ofList]
    exact iff_of_false hdigits (Int.not_lt.mpr hn)
  · rw [if_neg hn, String.toList_append]
    exact iff_of_true (List.mem_append_left _ (by decide)) (Int.not_le.mp hn)

namespace Fault

variable {operands : List Value} {value : Value} {expected : List Shape} {n : Int}

/-- A mismatch prints one of the operands, and no expected shape describes it. -/
def Blames (operands : List Value) : Fault → Prop
  | typeMismatch printed expected =>
      ∃ operand ∈ operands, printed = operand.print ∧ ∀ shape ∈ expected, ¬shape.Accepts operand
  | _ => True

theorem blames_mismatch (hvalue : value ∈ operands)
    (hnone : ∀ shape ∈ expected, ¬shape.Accepts value) :
    (value.mismatch expected).Blames operands :=
  ⟨value, hvalue, rfl, hnone⟩

theorem blames_mismatch_one {shape : Shape} (hvalue : value ∈ operands)
    (hrefused : ¬shape.Accepts value) : (value.mismatch [shape]).Blames operands := by
  apply blames_mismatch hvalue
  intro expected hexpected
  rw [List.mem_singleton.mp hexpected]
  exact hrefused

/-- Among integers only a negative one is no natural number. -/
theorem blames_natural_iff (hn : .int n ∈ operands)
    (hints : ∀ operand ∈ operands, ∃ m, operand = .int m) :
    ((Value.int n).mismatch [.natural]).Blames operands ↔ n < 0 := by
  constructor
  · rintro ⟨operand, hoperand, hprint, hnone⟩
    obtain ⟨m, rfl⟩ := hints operand hoperand
    have hrefused := hnone .natural (List.mem_singleton_self _)
    rw [Shape.natural_accepts_iff, Int.not_le, ← Value.minus_mem_print_iff, ← hprint] at hrefused
    exact Value.minus_mem_print_iff.mp hrefused
  · intro hneg
    apply blames_mismatch_one hn
    rw [Shape.natural_accepts_iff]
    omega

end Fault

/-! ## Bounded operands -/

/-- The integer as a number below a bound. -/
def Value.numberBelow (bound : Nat) (n : Int) : Except Fault Nat :=
  if 0 ≤ n ∧ n < bound then .ok n.toNat else .error ((Value.int n).mismatch [.natural])

theorem Value.asSize_eq_numberBelow (n : Int) : (int n).asSize = numberBelow Size.bound n := by
  rw [asSize_int, Size.ofInt?, numberBelow]
  by_cases hbelow : 0 ≤ n ∧ n < Size.bound
  · rw [if_pos hbelow, if_pos hbelow]
  · rw [if_neg hbelow, if_neg hbelow]

theorem Value.numberBelow_of_le {bound : Nat} {n : Int} (hle : (bound : Int) ≤ n) :
    numberBelow bound n = .error ((int n).mismatch [.natural]) :=
  if_neg fun hbelow => absurd hbelow.2 (Int.not_lt.mpr hle)

/-- A number that is not too large is refused for its sign. -/
theorem Value.blames_numberBelow {bound : Nat} {n : Int} {fault : Fault} {operands : List Value}
    (hfault : numberBelow bound n = .error fault) (hsmall : ¬(bound : Int) ≤ n)
    (hn : int n ∈ operands) (hints : ∀ operand ∈ operands, ∃ m, operand = int m) :
    fault.Blames operands := by
  rw [numberBelow] at hfault
  split at hfault
  · cases hfault
  · cases hfault
    rw [Fault.blames_natural_iff hn hints]
    omega

theorem bind_ok_eq_error_iff {Number : Type} {number : Except Fault Number}
    {finish : Number → Value} {fault : Fault} :
    (number >>= fun size => .ok (finish size)) = .error fault ↔ number = .error fault := by
  cases number <;> simp [bind, Except.bind]

namespace BinaryOp

variable {op : BinaryOp} {left right : Value} {fault : Fault} {a n : Int} {bound : Nat}

/-- The first right operand that is too large for an operator on integers. -/
def rightBound : BinaryOp → Option Nat
  | pow => some (pow2 32)
  | shl | shr => some Size.bound
  | _ => none

theorem onIntegers_eq_numberBelow (hbound : op.rightBound = some bound) (a n : Int) :
    ∃ finish : Nat → Value, op.onIntegers a n = some (Value.numberBelow bound n >>= fun size =>
      .ok (finish size)) := by
  cases op <;> cases hbound
  · exact ⟨fun size => .int (a.pow size), rfl⟩
  all_goals
    simp only [onIntegers, Value.asSize_eq_numberBelow]
    exact ⟨_, rfl⟩

theorem onFitting_int (hbound : op.rightBound = some bound) (a n : Int) :
    op.onFitting (.int a) (.int n) = op.onIntegers a n := by
  cases op <;> cases hbound <;> rfl

theorem apply_eq_error_of_le (hbound : op.rightBound = some bound) (hn : (bound : Int) ≤ n) :
    op.apply (.int a) (.int n) = .error ((Value.int n).mismatch [.natural]) := by
  obtain ⟨finish, hfinish⟩ := onIntegers_eq_numberBelow hbound a n
  rw [apply, onFitting_int hbound, hfinish, Value.numberBelow_of_le hn]
  rfl

/-! ## Operands that do not fit -/

theorem mem_leftShapes {shape : Shape} (hshape : shape ∈ op.leftShapes) :
    shape ∈ [.integer, .boolean, .bits none, .string] := by
  cases op <;> simp only [leftShapes, List.mem_cons, List.not_mem_nil, or_false] at hshape ⊢ <;>
    tauto

/-- An operator takes a right operand that looks like a left one that it takes. -/
theorem onFitting_of_accepts
    (hkind : (op.leftShapes.any fun shape => shape.sameKind left.shape) = true)
    (hright : left.shape.Accepts right) : ∃ result, op.onFitting left right = some result := by
  cases left <;> cases right <;> try exact False.elim hright
  case bits.bits a b =>
    have hwidth : a.width = b.width := Eq.symm hright
    cases op <;> first
      | simp only [onFitting, sameScalar?, onBits, if_pos hwidth]; exact ⟨_, rfl⟩
      | cases hkind
  -- On the other shapes each operator takes all values or none.
  all_goals
    cases op <;> first
      | exact ⟨_, rfl⟩
      | cases hkind

theorem blames_blame (hfitting : op.onFitting left right = none) :
    (op.blame left right).Blames [left, right] := by
  rw [blame]
  split
  · rename_i hkind
    refine Fault.blames_mismatch_one (by simp) fun haccepts => ?_
    obtain ⟨result, hresult⟩ := onFitting_of_accepts hkind haccepts
    rw [hfitting] at hresult
    cases hresult
  · rename_i hkind
    refine Fault.blames_mismatch (by simp) fun shape hshape haccepts => hkind ?_
    rw [List.any_eq_true]
    exact ⟨shape, hshape, (Shape.accepts_iff_sameKind (mem_leftShapes hshape)).mp haccepts⟩

/-! ## Operands that fit -/

/-- Integers are refused by a division, or beyond a bound. -/
theorem onIntegers_eq_error (hfault : op.onIntegers a n = some (.error fault)) :
    fault = .divisionByZero ∨ fault = .inexactDivision a n ∨
      ∃ bound, op.rightBound = some bound ∧ Value.numberBelow bound n = .error fault := by
  cases hbound : op.rightBound with
  | some bound =>
      obtain ⟨finish, hfinish⟩ := onIntegers_eq_numberBelow hbound a n
      rw [hfinish] at hfault
      exact .inr (.inr ⟨bound, rfl, bind_ok_eq_error_iff.mp (Option.some.inj hfault)⟩)
  | none =>
      cases op <;> try cases hbound
      case none.div.refl | none.divRm.refl | none.mod.refl =>
        by_cases hzero : n = 0
        · subst hzero
          cases hfault
          exact .inl rfl
        · simp only [onIntegers, nonZero, if_neg hzero, bind, Except.bind] at hfault
          first
            | cases hfault
            | split at hfault
              · cases hfault
              · cases hfault
                exact .inr (.inl rfl)
      all_goals cases hfault

theorem map_ok_ne_error {Result : Type} (result : Option Result) (finish : Result → Value) :
    (result.map fun value => Except.ok (finish value)) ≠ some (.error fault) := by
  cases result <;> simp

/-- Operands that fit are refused only as integers. -/
theorem onFitting_eq_error (hfault : op.onFitting left right = some (.error fault)) :
    ∃ a n, left = .int a ∧ right = .int n ∧ op.onIntegers a n = some (.error fault) := by
  unfold onFitting at hfault
  split at hfault
  case h_1 | h_2 | h_4 => exact absurd hfault (map_ok_ne_error _ _)
  case h_3 => exact ⟨_, _, rfl, rfl, hfault⟩
  case h_5 =>
    split at hfault
    · exact absurd hfault (map_ok_ne_error _ _)
    · cases hfault
  all_goals cases hfault

end BinaryOp

/-! ## Operations -/

/-- The operations that check what they are given: the operators and the making of
a vector of zeros. -/
inductive Operation where
  | binary (op : BinaryOp) (left right : Value)
  | unary (op : UnaryOp) (operand : Value)
  | zeros (width : Value)

namespace Operation

variable {operation : Operation}

def operands : Operation → List Value
  | binary _ left right => [left, right]
  | unary _ operand => [operand]
  | zeros width => [width]

def result : Operation → Except Fault Value
  | binary op left right => op.apply left right
  | unary op operand => op.apply operand
  | zeros width => width.zeros

/-- Every mismatch is the fault of an operand. -/
def BlamesRightly (operation : Operation) : Prop :=
  ∀ fault, operation.result = .error fault → fault.Blames operation.operands

/-- An integer where a machine word is needed, and too large for it. -/
def Oversized : Operation → Prop
  | binary op (.int _) (.int n) => ∃ bound, op.rightBound = some bound ∧ (bound : Int) ≤ n
  | zeros (.int n) => (Size.bound : Int) ≤ n
  | _ => False

theorem zeros_int (n : Int) :
    (Value.int n).zeros =
      (Value.numberBelow Size.bound n >>= fun size => .ok (.bits (Bits.zeros size))) := by
  rw [← Value.asSize_eq_numberBelow]
  rfl

theorem result_zeros_of_le {n : Int} (hle : (Size.bound : Int) ≤ n) :
    (zeros (.int n)).result = .error ((Value.int n).mismatch [.natural]) := by
  rw [result, zeros_int, Value.numberBelow_of_le hle]
  rfl

theorem not_blamesRightly_of_oversized (hlarge : operation.Oversized) :
    ¬operation.BlamesRightly := by
  intro hblames
  cases operation with
  | binary op left right =>
      cases left <;> cases right <;> try exact False.elim hlarge
      case int.int a n =>
        obtain ⟨bound, hbound, hle⟩ := hlarge
        have hneg := (Fault.blames_natural_iff (by simp [operands]) (by simp [operands])).mp
          (hblames _ (BinaryOp.apply_eq_error_of_le hbound hle))
        omega
  | unary op operand => exact hlarge
  | zeros width =>
      cases width <;> try exact False.elim hlarge
      case int n =>
        have hle : (Size.bound : Int) ≤ n := hlarge
        have hneg := (Fault.blames_natural_iff (by simp [operands]) (by simp [operands])).mp
          (hblames _ (result_zeros_of_le hle))
        omega

theorem blamesRightly_binary {op : BinaryOp} {left right : Value}
    (hsmall : ¬(binary op left right).Oversized) : (binary op left right).BlamesRightly := by
  intro fault hfault
  rw [result, BinaryOp.apply] at hfault
  cases hfitting : op.onFitting left right with
  | none =>
      rw [hfitting] at hfault
      cases hfault
      exact BinaryOp.blames_blame hfitting
  | some refused =>
      rw [hfitting] at hfault
      subst hfault
      obtain ⟨a, n, rfl, rfl, hints⟩ := BinaryOp.onFitting_eq_error hfitting
      rcases BinaryOp.onIntegers_eq_error hints with rfl | rfl | ⟨bound, hbound, hnumber⟩
      · trivial
      · trivial
      · exact Value.blames_numberBelow hnumber (fun hle => hsmall ⟨bound, hbound, hle⟩)
          (by simp [operands]) (by simp [operands])

theorem blamesRightly_unary (op : UnaryOp) (operand : Value) :
    (unary op operand).BlamesRightly := by
  intro fault hfault
  cases op <;> cases operand <;> cases hfault
  all_goals exact Fault.blames_mismatch_one (List.mem_singleton_self _) False.elim

theorem blamesRightly_zeros {width : Value} (hsmall : ¬(zeros width).Oversized) :
    (zeros width).BlamesRightly := by
  intro fault hfault
  cases width with
  | int n =>
      rw [result, zeros_int, bind_ok_eq_error_iff] at hfault
      exact Value.blames_numberBelow hfault hsmall (by simp [operands]) (by simp [operands])
  | _ =>
      cases hfault
      exact Fault.blames_mismatch_one (List.mem_singleton_self _) False.elim

/-- An operation blames an operand for what it is, exactly if it is not given an
integer that is too large for it. -/
theorem blamesRightly_iff (operation : Operation) :
    operation.BlamesRightly ↔ ¬operation.Oversized := by
  constructor
  · intro hblames hlarge
    exact not_blamesRightly_of_oversized hlarge hblames
  · intro hsmall
    cases operation with
    | binary op left right => exact blamesRightly_binary hsmall
    | unary op operand => exact blamesRightly_unary op operand
    | zeros width => exact blamesRightly_zeros hsmall

/-- A power of one is refused since its exponent, which needs 33 bits, would be no
integer from zero up. -/
theorem not_blamesRightly_pow :
    (binary .pow (.int 1) (.int 4294967296)).result =
        .error ((Value.int 4294967296).mismatch [.natural]) ∧
      ¬(binary .pow (.int 1) (.int 4294967296)).BlamesRightly := by
  have hbound : BinaryOp.pow.rightBound = some (pow2 32) := rfl
  have hle : (pow2 32 : Int) ≤ 4294967296 := by decide
  exact ⟨BinaryOp.apply_eq_error_of_le hbound hle,
    not_blamesRightly_of_oversized ⟨_, hbound, hle⟩⟩

end Operation

end ArchSpec
