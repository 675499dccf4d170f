import ArchSpec.Eval.Stmt
import ArchSpec.Program.Primitive

/-!
# Faults of operations on values

Of all faults only one reports an exception that nobody handled, and to report it is
left to the run as a whole.  Operators, slices, parts of values and primitives refuse
values for other reasons.
-/

namespace ArchSpec

variable {α β : Type}

/-- The fault is no report of an exception that nobody handled. -/
def Fault.Ordinary : Fault → Prop
  | .uncaughtException _ => False
  | _ => True

/-- The result is not refused by anything but an ordinary fault. -/
def OrdinaryResult : Except Fault α → Prop
  | .ok _ => True
  | .error fault => fault.Ordinary

namespace OrdinaryResult

theorem bind {first : Except Fault α} {next : α → Except Fault β} (hfirst : OrdinaryResult first)
    (hnext : ∀ value, OrdinaryResult (next value)) : OrdinaryResult (first >>= next) := by
  cases first with
  | error fault => exact hfirst
  | ok value => exact hnext value

theorem map_ok (result : Option α) (finish : α → β) :
    ∀ given ∈ result.map fun value => (Except.ok (finish value) : Except Fault β),
      OrdinaryResult given := by
  cases result <;> simp [OrdinaryResult]

end OrdinaryResult

/-! ## Values -/

namespace Value

theorem ordinary_asInt (value : Value) : OrdinaryResult value.asInt := by
  cases value <;> exact trivial

theorem ordinary_asBool (value : Value) : OrdinaryResult value.asBool := by
  cases value <;> exact trivial

theorem ordinary_asString (value : Value) : OrdinaryResult value.asString := by
  cases value <;> exact trivial

theorem ordinary_asBits (value : Value) : OrdinaryResult value.asBits := by
  cases value <;> exact trivial

theorem ordinary_exceptionName (value : Value) : OrdinaryResult value.exceptionName := by
  cases value <;> exact trivial

theorem ordinary_toBits (value : Value) (hint : Nat) : OrdinaryResult (value.toBits hint) := by
  cases value <;> exact trivial

theorem ordinary_asSize (value : Value) : OrdinaryResult value.asSize := by
  refine value.ordinary_asInt.bind fun n => ?_
  cases Size.ofInt? n <;> exact trivial

theorem ordinary_toBitsExact (value : Value) (width : Nat) :
    OrdinaryResult (value.toBitsExact width) := by
  refine (value.ordinary_toBits width).bind fun b => ?_
  split <;> exact trivial

theorem ordinary_zeros (value : Value) : OrdinaryResult value.zeros :=
  value.ordinary_asSize.bind fun _ => trivial

theorem ordinary_checkDistinct (fields : Named Value) : OrdinaryResult (checkDistinct fields) := by
  rw [checkDistinct]
  cases Named.repeats fields.names <;> exact trivial

theorem ordinary_makeRecord (fields : Named Value) : OrdinaryResult (makeRecord fields) :=
  (ordinary_checkDistinct fields).bind fun _ => trivial

theorem ordinary_makeException (name : String) (fields : Named Value) :
    OrdinaryResult (makeException name fields) :=
  (ordinary_checkDistinct fields).bind fun _ => trivial

theorem ordinary_getItem (value : Value) (index : Nat) : OrdinaryResult (value.getItem index) := by
  cases value with
  | tuple items =>
      rw [getItem]
      cases items[index]? <;> exact trivial
  | _ => exact trivial

theorem ordinary_setItem (value : Value) (index : Nat) (item : Value) :
    OrdinaryResult (value.setItem index item) := by
  cases value with
  | tuple items =>
      rw [setItem]
      split <;> exact trivial
  | _ => exact trivial

theorem ordinary_getField (value : Value) (field : String) :
    OrdinaryResult (value.getField field) := by
  cases value with
  | record fields | exception _ fields =>
      simp only [getField]
      cases Named.get? fields field <;> exact trivial
  | _ => exact trivial

theorem ordinary_setField (value : Value) (field : String) (item : Value) :
    OrdinaryResult (value.setField field item) := by
  cases value with
  | record fields | exception _ fields =>
      simp only [setField]
      cases Named.replace? fields field item <;> exact trivial
  | _ => exact trivial

end Value

theorem Literal.ordinary_value (literal : Literal) : OrdinaryResult literal.value := by
  cases literal with
  | bits digits =>
      simp only [value]
      cases Bits.ofString? digits <;> exact trivial
  | int | bool | str => exact trivial

/-! ## Operators -/

namespace BinaryOp

theorem ordinary_nonZero (n : Int) : OrdinaryResult (nonZero n) := by
  rw [nonZero]
  split <;> exact trivial

theorem ordinary_exponent (value : Value) : OrdinaryResult (exponent value) := by
  refine value.ordinary_asInt.bind fun n => ?_
  split <;> exact trivial

theorem ordinary_onIntegers (op : BinaryOp) (a b : Int) :
    ∀ result ∈ op.onIntegers a b, OrdinaryResult result := by
  intro result hresult
  cases op <;> cases hresult
  case div =>
    refine (ordinary_nonZero b).bind fun _ => ?_
    split <;> exact trivial
  case divRm | mod => exact (ordinary_nonZero b).bind fun _ => trivial
  case pow => exact (ordinary_exponent (.int b)).bind fun _ => trivial
  case shl | shr => exact (Value.ordinary_asSize (.int b)).bind fun _ => trivial
  all_goals exact trivial

theorem ordinary_onFitting (op : BinaryOp) (left right : Value) :
    ∀ result ∈ op.onFitting left right, OrdinaryResult result := by
  intro result hresult
  unfold onFitting at hresult
  split at hresult
  case h_1 | h_2 | h_4 => exact OrdinaryResult.map_ok _ _ result hresult
  case h_3 => exact ordinary_onIntegers _ _ _ result hresult
  case h_5 =>
    split at hresult
    · exact OrdinaryResult.map_ok _ _ result hresult
    · cases hresult
  case h_6 | h_7 =>
    cases hresult
    exact trivial
  case h_8 => cases hresult

theorem ordinary_blame (op : BinaryOp) (left right : Value) : (op.blame left right).Ordinary := by
  rw [blame]
  split <;> exact trivial

theorem ordinary_apply (op : BinaryOp) (left right : Value) :
    OrdinaryResult (op.apply left right) := by
  rw [apply]
  cases hfitting : op.onFitting left right with
  | none => exact op.ordinary_blame left right
  | some result => exact op.ordinary_onFitting left right result hfitting

end BinaryOp

theorem UnaryOp.ordinary_apply (op : UnaryOp) (value : Value) :
    OrdinaryResult (op.apply value) := by
  cases op <;> cases value <;> exact trivial

/-! ## Slices -/

namespace Slice

theorem ordinary_position (start length : Value) : OrdinaryResult (position start length) := by
  refine start.ordinary_asInt.bind fun startInt => length.ordinary_asInt.bind fun lengthInt => ?_
  dsimp only
  split
  · split <;> exact trivial
  · exact trivial

theorem ordinary_positions (slices : List (Value × Value)) :
    OrdinaryResult (positions slices) := by
  induction slices with
  | nil => exact trivial
  | cons first rest ih =>
      exact (ordinary_position first.1 first.2).bind fun _ => ih.bind fun _ => trivial

theorem ordinary_totalLength (total : Nat) (slices : List Position) :
    OrdinaryResult (totalLength total slices) := by
  induction slices generalizing total with
  | nil => exact trivial
  | cons first rest ih =>
      rw [totalLength]
      split
      · exact ih _
      · exact trivial

theorem ordinary_readParts (source : Bits) (slices : List Position) :
    OrdinaryResult (readParts source slices) := by
  induction slices with
  | nil => exact trivial
  | cons first rest ih =>
      rw [readParts]
      cases source.extract? first.start first.length with
      | none => exact trivial
      | some part => exact ih.bind fun _ => trivial

theorem ordinary_parts (slices : List (Value × Value)) (source : Value) :
    OrdinaryResult (parts slices source) := by
  refine (ordinary_positions slices).bind fun positions => ?_
  cases source with
  | int n => exact trivial
  | _ => exact (Value.ordinary_toBits _ 0).bind fun source => ordinary_readParts source positions

theorem ordinary_read (slices : List (Value × Value)) (source : Value) :
    OrdinaryResult (read slices source) :=
  (ordinary_parts slices source).bind fun _ => trivial

theorem ordinary_writeParts (bits : Bits) (remaining : Nat) (dest : Bits)
    (slices : List Position) : OrdinaryResult (writeParts bits remaining dest slices) := by
  induction slices generalizing remaining dest with
  | nil => exact trivial
  | cons first rest ih =>
      simp only [writeParts]
      cases bits.extract? (remaining - first.length) first.length with
      | none => exact trivial
      | some part =>
          cases hwritten : dest.overwrite? first.start part with
          | none => simp only [hwritten]; exact trivial
          | some written => simp only [hwritten]; exact ih _ written

theorem ordinary_write (slices : List (Value × Value)) (bits dest : Value) :
    OrdinaryResult (write slices bits dest) :=
  (ordinary_positions slices).bind fun positions =>
    (ordinary_totalLength 0 positions).bind fun total =>
      (bits.ordinary_toBitsExact total).bind fun bits =>
        (dest.ordinary_toBits (reach positions)).bind fun dest =>
          (ordinary_writeParts bits total dest positions).bind fun _ => trivial

theorem ordinary_widenAll (values : List Value) : OrdinaryResult (widenAll values) := by
  induction values with
  | nil => exact trivial
  | cons first rest ih => exact (first.ordinary_toBits 0).bind fun _ => ih.bind fun _ => trivial

theorem ordinary_concat (values : List Value) : OrdinaryResult (concat values) :=
  (ordinary_widenAll values).bind fun _ => trivial

end Slice

/-! ## Primitives -/

namespace Primitive

theorem ordinary_ascii (value : Value) : OrdinaryResult (ascii value) := by
  refine value.ordinary_asInt.bind fun n => ?_
  split <;> exact trivial

theorem ordinary_logarithm (value : Value) : OrdinaryResult (logarithm value) := by
  refine value.ordinary_asInt.bind fun n => ?_
  split <;> exact trivial

theorem ordinary_strings (values : List Value) : OrdinaryResult (strings values) := by
  induction values with
  | nil => exact trivial
  | cons first rest ih => exact first.ordinary_asString.bind fun _ => ih.bind fun _ => trivial

theorem ordinary_line (values : List Value) : OrdinaryResult (line values) := by
  have hstrings : OrdinaryResult (do
      return String.intercalate " " (← strings values) ++ "\n") :=
    (ordinary_strings values).bind fun _ => trivial
  rw [line]
  split
  · exact trivial
  · exact hstrings

theorem ordinary_onOne (primitive : Primitive) (values : List Value)
    {compute : Value → Except Fault Value} (hcompute : ∀ value, OrdinaryResult (compute value)) :
    OrdinaryResult (primitive.onOne values compute) := by
  match values with
  | [] | _ :: _ :: _ => exact trivial
  | [value] => exact (hcompute value).bind fun _ => trivial

theorem ordinary_call (primitive : Primitive) (values : List Value) :
    OrdinaryResult (primitive.call values) := by
  cases primitive with
  | uint | sint =>
      exact ordinary_onOne _ values fun value => value.ordinary_asBits.bind fun _ => trivial
  | decStr | hexStr =>
      exact ordinary_onOne _ values fun value => value.ordinary_asInt.bind fun _ => trivial
  | asciiStr => exact ordinary_onOne _ values ordinary_ascii
  | log2 => exact ordinary_onOne _ values ordinary_logarithm
  | print => exact (ordinary_line values).bind fun _ => trivial

end Primitive

/-! ## Bounds -/

theorem Eval.ordinary_rangeLength (high low : Value) : OrdinaryResult (rangeLength high low) :=
  (BinaryOp.ordinary_apply .sub high low).bind fun length =>
    BinaryOp.ordinary_apply .add length (.int 1)

theorem Eval.ordinary_loopBounds (down : Bool) (first last : Value) :
    OrdinaryResult (loopBounds down first last) := by
  cases first with
  | int a =>
    cases last with
    | int b => exact trivial
    | _ => exact BinaryOp.ordinary_blame _ _ _
  | _ => exact BinaryOp.ordinary_blame _ _ _

end ArchSpec
