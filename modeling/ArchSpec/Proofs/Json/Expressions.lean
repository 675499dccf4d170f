import ArchSpec.Program.Decode
import ArchSpec.Proofs.Json.Readings

/-!
# Expressions read back

Decoding the tree of an expression gives the expression back.  The recursion is
on the syntax; the bound on the nesting of syntax that a decoder takes is enough
because every node of the syntax is at least one object of the tree.
-/

namespace ArchSpec

open Json (Form tagged)
open Json.Decoder

theorem Literal.reads_encode (literal : Literal) :
    Reads Literal.decoder literal.encode literal := by
  intro level hlevel
  cases literal with
  | int n => exact choice_tagged hlevel fun _ hn => content_eq_some (reads_integer n) hn _
  | bool b => exact choice_tagged hlevel fun _ hb => content_eq_some (reads_flag b) hb _
  | bits digits =>
      exact choice_tagged hlevel fun _ htext => content_eq_some (reads_text digits) htext _
  | str text =>
      exact choice_tagged hlevel fun _ htext => content_eq_some (reads_text text) htext _

theorem BinaryOp.reads_name (op : BinaryOp) : Reads BinaryOp.decoder (.str op.name) op := by
  intro level _
  cases op <;> rfl

theorem UnaryOp.reads_name (op : UnaryOp) : Reads UnaryOp.decoder (.str op.name) op := by
  intro level _
  cases op <;> rfl

theorem SubprogramKind.reads_name (kind : SubprogramKind) :
    Reads SubprogramKind.decoder (.str kind.name) kind := by
  intro level _
  cases kind <;> rfl

/-! ## Bounds on the nesting of syntax -/

section Fuel

variable {fuel : Nat}

/-- A bound that is enough for an object is a step above one for its entries. -/
theorem exists_fuel_of_obj {entries : Named Json} (hfuel : (Json.obj entries).depth ≤ fuel) :
    ∃ rest, fuel = rest + 1 ∧ Json.depthEntries entries ≤ rest := by
  rw [Json.depth_obj] at hfuel
  exact ⟨fuel - 1, by omega, by omega⟩

theorem exists_fuel {tag : String} {content : Json} (hfuel : (tagged tag content).depth ≤ fuel) :
    ∃ rest, fuel = rest + 1 ∧ content.depth ≤ rest := by
  rw [Json.depth_tagged] at hfuel
  exact ⟨fuel - 1, by omega, by omega⟩

theorem depth_entry {entries : Named Json} {json : Json} (name : String)
    (hjson : Named.get? entries name = some json) (hfuel : Json.depthEntries entries ≤ fuel) :
    json.depth ≤ fuel :=
  Nat.le_trans (Json.depth_le_of_get? hjson) hfuel

theorem depth_field {entries : Named Json} {json : Json} (name : String)
    (hjson : Named.get? entries name = some json) (hfuel : (Json.obj entries).depth ≤ fuel) :
    json.depth ≤ fuel :=
  depth_entry name hjson (Nat.le_of_succ_le hfuel)

theorem depth_head {first : Json} {rest : List Json}
    (hfuel : (Json.arr (first :: rest)).depth ≤ fuel) : first.depth ≤ fuel := by
  rw [Json.depth_arr, Json.depthItems_cons] at hfuel
  omega

theorem depth_tail {first : Json} {rest : List Json}
    (hfuel : (Json.arr (first :: rest)).depth ≤ fuel) : (Json.arr rest).depth ≤ fuel := by
  rw [Json.depth_arr, Json.depthItems_cons] at hfuel
  rw [Json.depth_arr]
  omega

end Fuel

/-! ## Expressions -/

mutual

theorem Expr.reads_encode (form : Form) : ∀ (expr : Expr) {fuel : Nat}, expr.encode.depth ≤ fuel →
    Reads (Expr.decoder form fuel) expr.encode expr
  | .literal literal, fuel, hfuel => by
      obtain ⟨fuel, rfl, _⟩ := exists_fuel hfuel
      intro level hlevel
      rw [Expr.decoder]
      exact choice_tagged hlevel fun level hlevel =>
        content_eq_some literal.reads_encode hlevel _
  | .var name, fuel, hfuel => by
      obtain ⟨fuel, rfl, _⟩ := exists_fuel hfuel
      intro level hlevel
      rw [Expr.decoder]
      exact choice_tagged hlevel fun level hlevel => content_eq_some (reads_text name) hlevel _
  | .binary op left right, fuel, hfuel => by
      obtain ⟨fuel, rfl, hparts⟩ := exists_fuel hfuel
      have hleft := left.reads_encode form (depth_field "left" rfl hparts)
      have hright := right.reads_encode form (depth_field "right" rfl hparts)
      intro level hlevel
      rw [Expr.decoder]
      refine choice_tagged hlevel fun level hlevel => ?_
      refine fields_bind_eq_some rfl rfl hlevel fun level hlevel => ?_
      rw [required_eq_some rfl op.reads_name hlevel, required_eq_some rfl hleft hlevel,
        required_eq_some rfl hright hlevel]
      rfl
  | .unary op operand, fuel, hfuel => by
      obtain ⟨fuel, rfl, hparts⟩ := exists_fuel hfuel
      have hoperand := operand.reads_encode form (depth_field "expr" rfl hparts)
      intro level hlevel
      rw [Expr.decoder]
      refine choice_tagged hlevel fun level hlevel => ?_
      refine fields_bind_eq_some rfl rfl hlevel fun level hlevel => ?_
      rw [required_eq_some rfl op.reads_name hlevel, required_eq_some rfl hoperand hlevel]
      rfl
  | .call callee args, fuel, hfuel => by
      obtain ⟨fuel, rfl, hparts⟩ := exists_fuel hfuel
      have hargs := Expr.reads_encodeAll form args (depth_field "args" rfl hparts)
      intro level hlevel
      rw [Expr.decoder]
      refine choice_tagged hlevel fun level hlevel => ?_
      refine fields_bind_eq_some rfl rfl hlevel fun level hlevel => ?_
      rw [required_eq_some rfl (reads_text callee) hlevel,
        required_eq_some rfl (.list hargs) hlevel]
      rfl
  | .slice source slices, fuel, hfuel => by
      obtain ⟨fuel, rfl, hparts⟩ := exists_fuel hfuel
      have hsource := source.reads_encode form (depth_field "expr" rfl hparts)
      have hslices := SliceExpr.reads_encodeAll form slices (depth_field "slices" rfl hparts)
      intro level hlevel
      rw [Expr.decoder]
      refine choice_tagged hlevel fun level hlevel => ?_
      refine fields_bind_eq_some rfl rfl hlevel fun level hlevel => ?_
      rw [required_eq_some rfl hsource hlevel, required_eq_some rfl (.list hslices) hlevel]
      rfl
  | .concat items, fuel, hfuel => by
      obtain ⟨fuel, rfl, hparts⟩ := exists_fuel hfuel
      have hitems := Expr.reads_encodeAll form items hparts
      intro level hlevel
      rw [Expr.decoder]
      exact choice_tagged hlevel fun level hlevel => content_eq_some (.list hitems) hlevel _
  | .cond test yes no, fuel, hfuel => by
      obtain ⟨fuel, rfl, hparts⟩ := exists_fuel hfuel
      have htest := test.reads_encode form (depth_field "cond" rfl hparts)
      have hyes := yes.reads_encode form (depth_field "yes" rfl hparts)
      have hno := no.reads_encode form (depth_field "no" rfl hparts)
      intro level hlevel
      rw [Expr.decoder]
      refine choice_tagged hlevel fun level hlevel => ?_
      refine fields_bind_eq_some rfl rfl hlevel fun level hlevel => ?_
      rw [required_eq_some rfl htest hlevel, required_eq_some rfl hyes hlevel,
        required_eq_some rfl hno hlevel]
      rfl
  | .tuple items, fuel, hfuel => by
      obtain ⟨fuel, rfl, hparts⟩ := exists_fuel hfuel
      have hitems := Expr.reads_encodeAll form items hparts
      intro level hlevel
      rw [Expr.decoder]
      exact choice_tagged hlevel fun level hlevel => content_eq_some (.list hitems) hlevel _
  | .item source index, fuel, hfuel => by
      obtain ⟨fuel, rfl, hparts⟩ := exists_fuel hfuel
      have hsource := source.reads_encode form (depth_field "expr" rfl hparts)
      intro level hlevel
      rw [Expr.decoder]
      refine choice_tagged hlevel fun level hlevel => ?_
      refine fields_bind_eq_some rfl rfl hlevel fun level hlevel => ?_
      rw [required_eq_some rfl hsource hlevel, required_eq_some rfl (reads_size index) hlevel]
      rfl
  | .record fields, fuel, hfuel => by
      obtain ⟨fuel, rfl, hparts⟩ := exists_fuel hfuel
      have hfields := Expr.reads_encodeFields form fields hparts
      intro level hlevel
      rw [Expr.decoder]
      exact choice_tagged hlevel fun level hlevel => content_eq_some (.list hfields) hlevel _
  | .field source name, fuel, hfuel => by
      obtain ⟨fuel, rfl, hparts⟩ := exists_fuel hfuel
      have hsource := source.reads_encode form (depth_field "expr" rfl hparts)
      intro level hlevel
      rw [Expr.decoder]
      refine choice_tagged hlevel fun level hlevel => ?_
      refine fields_bind_eq_some rfl rfl hlevel fun level hlevel => ?_
      rw [required_eq_some rfl hsource hlevel, required_eq_some rfl (reads_text name) hlevel]
      rfl
  | .exception name fields, fuel, hfuel => by
      obtain ⟨fuel, rfl, hparts⟩ := exists_fuel hfuel
      have hfields := Expr.reads_encodeFields form fields (depth_field "fields" rfl hparts)
      intro level hlevel
      rw [Expr.decoder]
      refine choice_tagged hlevel fun level hlevel => ?_
      refine fields_bind_eq_some rfl rfl hlevel fun level hlevel => ?_
      rw [required_eq_some rfl (reads_text name) hlevel,
        required_eq_some rfl (.list hfields) hlevel]
      rfl

theorem Expr.reads_encodeAll (form : Form) : ∀ (exprs : List Expr) {fuel : Nat},
    (Json.arr (Expr.encodeAll exprs)).depth ≤ fuel →
    List.Forall₂ (Reads (Expr.decoder form fuel)) (Expr.encodeAll exprs) exprs
  | [], _, _ => .nil
  | first :: rest, _, hfuel =>
      .cons (first.reads_encode form (depth_head hfuel))
        (Expr.reads_encodeAll form rest (depth_tail hfuel))

theorem Expr.reads_encodeFields (form : Form) : ∀ (fields : List (String × Expr)) {fuel : Nat},
    (Json.arr (Expr.encodeFields fields)).depth ≤ fuel →
    List.Forall₂ (Reads (Json.Decoder.pair text (Expr.decoder form fuel)))
      (Expr.encodeFields fields) fields
  | [], _, _ => .nil
  | (name, first) :: rest, _, hfuel =>
      have hfirst := depth_head (depth_tail (depth_head hfuel))
      .cons ((reads_text name).pair (first.reads_encode form hfirst))
        (Expr.reads_encodeFields form rest (depth_tail hfuel))

theorem SliceExpr.reads_encode (form : Form) : ∀ (slice : SliceExpr) {fuel : Nat},
    slice.encode.depth ≤ fuel → Reads (SliceExpr.decoder form fuel) slice.encode slice
  | .single index, fuel, hfuel => by
      obtain ⟨fuel, rfl, hparts⟩ := exists_fuel hfuel
      have hindex := index.reads_encode form hparts
      intro level hlevel
      rw [SliceExpr.decoder]
      exact choice_tagged hlevel fun level hlevel => content_eq_some hindex hlevel _
  | .range high low, fuel, hfuel => by
      obtain ⟨fuel, rfl, hparts⟩ := exists_fuel hfuel
      have hhigh := high.reads_encode form (depth_head hparts)
      have hlow := low.reads_encode form (depth_head (depth_tail hparts))
      intro level hlevel
      rw [SliceExpr.decoder]
      refine choice_tagged hlevel fun level hlevel => ?_
      simp only [content, hhigh.pair hlow level hlevel]
      rfl
  | .length start length, fuel, hfuel => by
      obtain ⟨fuel, rfl, hparts⟩ := exists_fuel hfuel
      have hstart := start.reads_encode form (depth_head hparts)
      have hlength := length.reads_encode form (depth_head (depth_tail hparts))
      intro level hlevel
      rw [SliceExpr.decoder]
      refine choice_tagged hlevel fun level hlevel => ?_
      simp only [content, hstart.pair hlength level hlevel]
      rfl

theorem SliceExpr.reads_encodeAll (form : Form) : ∀ (slices : List SliceExpr) {fuel : Nat},
    (Json.arr (SliceExpr.encodeAll slices)).depth ≤ fuel →
    List.Forall₂ (Reads (SliceExpr.decoder form fuel)) (SliceExpr.encodeAll slices) slices
  | [], _, _ => .nil
  | first :: rest, _, hfuel =>
      .cons (first.reads_encode form (depth_head hfuel))
        (SliceExpr.reads_encodeAll form rest (depth_tail hfuel))

end

/-- No expression is encoded as null. -/
theorem Expr.encode_ne_null (expr : Expr) : expr.encode ≠ .null := by
  cases expr <;> exact nofun

section Parts

variable (form : Form)

theorem Expr.reads_decode (expr : Expr) : Reads (Expr.decode form) expr.encode expr :=
  fun level hlevel => expr.reads_encode form hlevel level hlevel

theorem Expr.reads_decodeAll : ∀ exprs : List Expr,
    List.Forall₂ (Reads (Expr.decode form)) (Expr.encodeAll exprs) exprs
  | [] => .nil
  | first :: rest => .cons (first.reads_decode form) (Expr.reads_decodeAll rest)

theorem Expr.reads_decodeOption (expr : Option Expr) :
    Reads (Json.Decoder.optional (Expr.decode form)) (Json.ofOption (expr.map Expr.encode)) expr :=
  reads_optional expr (Expr.reads_decode form) Expr.encode_ne_null

theorem SliceExpr.reads_decode (slice : SliceExpr) :
    Reads (SliceExpr.decode form) slice.encode slice :=
  fun level hlevel => slice.reads_encode form hlevel level hlevel

theorem SliceExpr.reads_decodeAll : ∀ slices : List SliceExpr,
    List.Forall₂ (Reads (SliceExpr.decode form)) (SliceExpr.encodeAll slices) slices
  | [] => .nil
  | first :: rest => .cons (first.reads_decode form) (SliceExpr.reads_decodeAll rest)

end Parts

end ArchSpec
