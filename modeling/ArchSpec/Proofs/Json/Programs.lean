import ArchSpec.Proofs.Json.Expressions

/-!
# Programs read back

Whatever tree a program is encoded to, decoding the tree gives the program back,
however deep its syntax nests and however large its integers are.  So programs
can be told apart by their encodings.
-/

namespace ArchSpec

open Json (Form)
open Json.Decoder

section Parts

variable (form : Form)

/-! ## Types -/

mutual

/-- A type without content is encoded as its name, so the bound is a step above
the depth of the tree. -/
theorem Ty.reads_encode : ∀ (ty : Ty) {fuel : Nat}, ty.encode.depth ≤ fuel →
    Reads (Ty.decoder form (fuel + 1)) ty.encode ty
  | .integer, _, _ => fun _ _ => rfl
  | .boolean, _, _ => fun _ _ => rfl
  | .bits width, _, _ => by
      intro level hlevel
      rw [Ty.decoder]
      exact choice_tagged hlevel fun level hlevel =>
        content_eq_some (width.reads_decode form) hlevel _
  | .string, _, _ => fun _ _ => rfl
  | .tuple items, fuel, hfuel => by
      obtain ⟨fuel, rfl, hparts⟩ := exists_fuel hfuel
      have hitems := Ty.reads_encodeAll items hparts
      intro level hlevel
      rw [Ty.decoder]
      exact choice_tagged hlevel fun level hlevel => content_eq_some (.list hitems) hlevel _
  | .record fields, fuel, hfuel => by
      obtain ⟨fuel, rfl, hparts⟩ := exists_fuel hfuel
      have hfields := Ty.reads_encodeFields fields hparts
      intro level hlevel
      rw [Ty.decoder]
      exact choice_tagged hlevel fun level hlevel => content_eq_some (.list hfields) hlevel _
  | .exception fields, fuel, hfuel => by
      obtain ⟨fuel, rfl, hparts⟩ := exists_fuel hfuel
      have hfields := Ty.reads_encodeFields fields hparts
      intro level hlevel
      rw [Ty.decoder]
      exact choice_tagged hlevel fun level hlevel => content_eq_some (.list hfields) hlevel _
  | .named name, _, _ => by
      intro level hlevel
      rw [Ty.decoder]
      exact choice_tagged hlevel fun level hlevel => content_eq_some (reads_text name) hlevel _

theorem Ty.reads_encodeAll : ∀ (types : List Ty) {fuel : Nat},
    (Json.arr (Ty.encodeAll types)).depth ≤ fuel →
    List.Forall₂ (Reads (Ty.decoder form (fuel + 1))) (Ty.encodeAll types) types
  | [], _, _ => .nil
  | first :: rest, _, hfuel =>
      .cons (first.reads_encode (depth_head hfuel)) (Ty.reads_encodeAll rest (depth_tail hfuel))

theorem Ty.reads_encodeFields : ∀ (fields : List (String × Ty)) {fuel : Nat},
    (Json.arr (Ty.encodeFields fields)).depth ≤ fuel →
    List.Forall₂ (Reads (Json.Decoder.pair text (Ty.decoder form (fuel + 1))))
      (Ty.encodeFields fields) fields
  | [], _, _ => .nil
  | (name, first) :: rest, _, hfuel =>
      have hfirst := depth_head (depth_tail (depth_head hfuel))
      .cons ((reads_text name).pair (first.reads_encode hfirst))
        (Ty.reads_encodeFields rest (depth_tail hfuel))

end

theorem Ty.encode_ne_null (ty : Ty) : ty.encode ≠ .null := by
  cases ty <;> exact nofun

theorem Ty.reads_decode (ty : Ty) : Reads (Ty.decode form) ty.encode ty :=
  fun level hlevel => ty.reads_encode form hlevel level hlevel

theorem Ty.reads_decodeFields : ∀ fields : List (String × Ty),
    List.Forall₂ (Reads (Json.Decoder.pair text (Ty.decode form))) (Ty.encodeFields fields) fields
  | [] => .nil
  | (name, first) :: rest =>
      .cons ((reads_text name).pair (first.reads_decode form)) (Ty.reads_decodeFields rest)

theorem Ty.reads_decodeOption (ty : Option Ty) :
    Reads (Json.Decoder.optional (Ty.decode form)) (Json.ofOption (ty.map Ty.encode)) ty :=
  reads_optional ty (Ty.reads_decode form) Ty.encode_ne_null

/-! ## Targets -/

theorem Target.reads_encode : ∀ (target : Target) {fuel : Nat}, target.encode.depth ≤ fuel →
    Reads (Target.decoder form (fuel + 1)) target.encode target
  | .discard, _, _ => fun _ _ => rfl
  | .var name, _, _ => by
      intro level hlevel
      rw [Target.decoder]
      exact choice_tagged hlevel fun level hlevel => content_eq_some (reads_text name) hlevel _
  | .slice whole slices, fuel, hfuel => by
      obtain ⟨fuel, rfl, hparts⟩ := exists_fuel hfuel
      have hwhole := whole.reads_encode (depth_head hparts)
      have hslices := SliceExpr.reads_decodeAll form slices
      intro level hlevel
      rw [Target.decoder]
      refine choice_tagged hlevel fun level hlevel => ?_
      simp only [content, hwhole.pair (.list hslices) level hlevel]
      rfl
  | .field whole name, fuel, hfuel => by
      obtain ⟨fuel, rfl, hparts⟩ := exists_fuel hfuel
      have hwhole := whole.reads_encode (depth_head hparts)
      intro level hlevel
      rw [Target.decoder]
      refine choice_tagged hlevel fun level hlevel => ?_
      simp only [content, hwhole.pair (reads_text name) level hlevel]
      rfl
  | .item whole index, fuel, hfuel => by
      obtain ⟨fuel, rfl, hparts⟩ := exists_fuel hfuel
      have hwhole := whole.reads_encode (depth_head hparts)
      intro level hlevel
      rw [Target.decoder]
      refine choice_tagged hlevel fun level hlevel => ?_
      simp only [content, hwhole.pair (reads_size index) level hlevel]
      rfl

theorem Target.reads_decode (target : Target) : Reads (Target.decode form) target.encode target :=
  fun level hlevel => target.reads_encode form hlevel level hlevel

/-! ## Statements -/

theorem Stmt.encode_ne_null (stmt : Stmt) : stmt.encode ≠ .null := by
  cases stmt with
  | attempt body catchers otherwise => cases otherwise <;> exact nofun
  | _ => exact nofun

theorem Catcher.reads_binding (binding : Option String) :
    Reads (Json.Decoder.optional text) (Json.ofOption (binding.map .str)) binding :=
  reads_optional binding reads_text fun _ => nofun

mutual

theorem Stmt.reads_encode : ∀ (stmt : Stmt) {fuel : Nat}, stmt.encode.depth ≤ fuel →
    Reads (Stmt.decoder form (fuel + 1)) stmt.encode stmt
  | .pass, _, _ => fun _ _ => rfl
  | .block stmts, fuel, hfuel => by
      obtain ⟨fuel, rfl, hparts⟩ := exists_fuel hfuel
      have hstmts := Stmt.reads_encodeAll stmts hparts
      intro level hlevel
      rw [Stmt.decoder]
      exact choice_tagged hlevel fun level hlevel => content_eq_some (.list hstmts) hlevel _
  | .declare name ty init, _, _ => by
      intro level hlevel
      rw [Stmt.decoder]
      refine choice_tagged hlevel fun level hlevel => ?_
      refine fields_bind_eq_some rfl rfl hlevel fun level hlevel => ?_
      rw [required_eq_some rfl (reads_text name) hlevel,
        optional_eq_some rfl (Ty.reads_decodeOption form ty) hlevel,
        optional_eq_some rfl (Expr.reads_decodeOption form init) hlevel]
      rfl
  | .assign target value, _, _ => by
      have hpair := (target.reads_decode form).pair (value.reads_decode form)
      intro level hlevel
      rw [Stmt.decoder]
      refine choice_tagged hlevel fun level hlevel => ?_
      simp only [content, hpair level hlevel]
      rfl
  | .call callee args, _, _ => by
      intro level hlevel
      rw [Stmt.decoder]
      refine choice_tagged hlevel fun level hlevel => ?_
      refine fields_bind_eq_some rfl rfl hlevel fun level hlevel => ?_
      rw [required_eq_some rfl (reads_text callee) hlevel,
        required_eq_some rfl (.list (Expr.reads_decodeAll form args)) hlevel]
      rfl
  | .ret value, _, _ => by
      intro level hlevel
      rw [Stmt.decoder]
      exact choice_tagged hlevel fun level hlevel =>
        content_eq_some (Expr.reads_decodeOption form value) hlevel _
  | .branch test yes no, fuel, hfuel => by
      obtain ⟨fuel, rfl, hparts⟩ := exists_fuel hfuel
      have hyes := yes.reads_encode (depth_field "then_branch" rfl hparts)
      have hno := no.reads_encode (depth_field "else_branch" rfl hparts)
      intro level hlevel
      rw [Stmt.decoder]
      refine choice_tagged hlevel fun level hlevel => ?_
      refine fields_bind_eq_some rfl rfl hlevel fun level hlevel => ?_
      rw [required_eq_some rfl (test.reads_decode form) hlevel, required_eq_some rfl hyes hlevel,
        required_eq_some rfl hno hlevel]
      rfl
  | .count index first last down body, fuel, hfuel => by
      obtain ⟨fuel, rfl, hparts⟩ := exists_fuel hfuel
      have hbody := body.reads_encode (depth_field "body" rfl hparts)
      intro level hlevel
      rw [Stmt.decoder]
      refine choice_tagged hlevel fun level hlevel => ?_
      refine fields_bind_eq_some rfl rfl hlevel fun level hlevel => ?_
      rw [required_eq_some rfl (reads_text index) hlevel,
        required_eq_some rfl (first.reads_decode form) hlevel,
        required_eq_some rfl (last.reads_decode form) hlevel,
        required_eq_some rfl (reads_flag down) hlevel, required_eq_some rfl hbody hlevel]
      rfl
  | .loop test body, fuel, hfuel => by
      obtain ⟨fuel, rfl, hparts⟩ := exists_fuel hfuel
      have hbody := body.reads_encode (depth_field "body" rfl hparts)
      intro level hlevel
      rw [Stmt.decoder]
      refine choice_tagged hlevel fun level hlevel => ?_
      refine fields_bind_eq_some rfl rfl hlevel fun level hlevel => ?_
      rw [required_eq_some rfl (test.reads_decode form) hlevel, required_eq_some rfl hbody hlevel]
      rfl
  | .assert test, _, _ => by
      intro level hlevel
      rw [Stmt.decoder]
      exact choice_tagged hlevel fun level hlevel =>
        content_eq_some (test.reads_decode form) hlevel _
  | .raise exc, _, _ => by
      intro level hlevel
      rw [Stmt.decoder]
      exact choice_tagged hlevel fun level hlevel =>
        content_eq_some (Expr.reads_decodeOption form exc) hlevel _
  | .attempt body catchers none, fuel, hfuel => by
      obtain ⟨fuel, rfl, hparts⟩ := exists_fuel hfuel
      have hbody := body.reads_encode (depth_field "body" rfl hparts)
      have hcatchers := Catcher.reads_encodeAll catchers (depth_field "catchers" rfl hparts)
      intro level hlevel
      rw [Stmt.decoder]
      refine choice_tagged hlevel fun level hlevel => ?_
      refine fields_bind_eq_some rfl rfl hlevel fun level hlevel => ?_
      rw [required_eq_some rfl hbody hlevel, required_eq_some rfl (.list hcatchers) hlevel]
      rfl
  | .attempt body catchers (some otherwise), fuel, hfuel => by
      obtain ⟨fuel, rfl, hparts⟩ := exists_fuel hfuel
      have hbody := body.reads_encode (depth_field "body" rfl hparts)
      have hcatchers := Catcher.reads_encodeAll catchers (depth_field "catchers" rfl hparts)
      have hotherwise := otherwise.reads_encode (depth_field "otherwise" rfl hparts)
      intro level hlevel
      rw [Stmt.decoder]
      refine choice_tagged hlevel fun level hlevel => ?_
      refine fields_bind_eq_some rfl rfl hlevel fun level hlevel => ?_
      rw [required_eq_some rfl hbody hlevel, required_eq_some rfl (.list hcatchers) hlevel,
        optional_eq_some rfl (hotherwise.present otherwise.encode_ne_null) hlevel]
      rfl

theorem Stmt.reads_encodeAll : ∀ (stmts : List Stmt) {fuel : Nat},
    (Json.arr (Stmt.encodeAll stmts)).depth ≤ fuel →
    List.Forall₂ (Reads (Stmt.decoder form (fuel + 1))) (Stmt.encodeAll stmts) stmts
  | [], _, _ => .nil
  | first :: rest, _, hfuel =>
      .cons (first.reads_encode (depth_head hfuel)) (Stmt.reads_encodeAll rest (depth_tail hfuel))

theorem Catcher.reads_encodeAll : ∀ (catchers : List Catcher) {fuel : Nat},
    (Json.arr (Catcher.encodeAll catchers)).depth ≤ fuel →
    List.Forall₂ (Reads (Catcher.decoder form (fuel + 1))) (Catcher.encodeAll catchers) catchers
  | [], _, _ => .nil
  | .mk binding exception body :: rest, fuel, hfuel => by
      have hrest := Catcher.reads_encodeAll rest (depth_tail hfuel)
      obtain ⟨fuel, rfl, hparts⟩ := exists_fuel_of_obj (depth_head hfuel)
      have hbody := body.reads_encode (depth_entry "body" rfl hparts)
      refine .cons ?_ hrest
      intro level hlevel
      rw [Catcher.decoder]
      refine fields_bind_eq_some rfl rfl hlevel fun level hlevel => ?_
      rw [optional_eq_some rfl (Catcher.reads_binding binding) hlevel,
        required_eq_some rfl (reads_text exception) hlevel, required_eq_some rfl hbody hlevel]
      rfl

end

theorem Stmt.reads_decode (stmt : Stmt) : Reads (Stmt.decode form) stmt.encode stmt :=
  fun level hlevel => stmt.reads_encode form hlevel level hlevel

/-! ## Declarations -/

theorem Body.reads_decode (body : Body) : Reads (Body.decode form) body.encode body := by
  intro level hlevel
  cases body with
  | stmt body =>
      exact choice_tagged hlevel fun level hlevel =>
        content_eq_some (body.reads_decode form) hlevel _
  | primitive name =>
      exact choice_tagged hlevel fun level hlevel => content_eq_some (reads_text name) hlevel _

theorem Subprogram.reads_decode (decl : Subprogram) :
    Reads (Subprogram.decode form) decl.encode decl := by
  intro level hlevel
  refine fields_bind_eq_some rfl rfl hlevel fun level hlevel => ?_
  rw [required_eq_some rfl (reads_text decl.name) hlevel,
    required_eq_some rfl (.list (reads_each reads_text decl.parameters)) hlevel,
    required_eq_some rfl (.list (Ty.reads_decodeFields form decl.args)) hlevel,
    optional_eq_some rfl (Ty.reads_decodeOption form decl.returns) hlevel,
    required_eq_some rfl (decl.body.reads_decode form) hlevel,
    required_eq_some rfl decl.kind.reads_name hlevel]
  rfl

theorem Global.reads_decode (decl : Global) : Reads (Global.decode form) decl.encode decl := by
  intro level hlevel
  refine fields_bind_eq_some rfl rfl hlevel fun level hlevel => ?_
  rw [required_eq_some rfl (reads_text decl.name) hlevel,
    optional_eq_some rfl (Ty.reads_decodeOption form decl.ty) hlevel,
    optional_eq_some rfl (Expr.reads_decodeOption form decl.init) hlevel]
  rfl

theorem Decl.reads_decode (decl : Decl) : Reads (Decl.decode form) decl.encode decl := by
  intro level hlevel
  cases decl with
  | subprogram decl =>
      exact choice_tagged hlevel fun level hlevel =>
        content_eq_some (decl.reads_decode form) hlevel _
  | global decl =>
      exact choice_tagged hlevel fun level hlevel =>
        content_eq_some (decl.reads_decode form) hlevel _

/-- The declarations of a program come back in their order. -/
theorem Program.reads_decode (program : Program) :
    Reads (Program.decode form) program.encode program := by
  intro level hlevel
  refine fields_bind_eq_some rfl rfl hlevel fun level hlevel => ?_
  rw [required_eq_some rfl (.list (reads_each (Decl.reads_decode form) program.decls)) hlevel]
  rfl

end Parts

/-- Every program is what its own encoding is decoded to, so no two programs are
encoded alike. -/
theorem Program.ofJson?_encode :
    (∀ program : Program, Program.ofJson? program.encode = some program) ∧
      Function.Injective Program.encode := by
  have hread : ∀ program : Program, Program.ofJson? program.encode = some program :=
    fun program => program.reads_decode .tree program.encode.depth (Nat.le_refl _)
  refine ⟨hread, fun left right hsame => ?_⟩
  have hleft := hread left
  rw [hsame, hread right] at hleft
  exact (Option.some.inj hleft).symm

end ArchSpec
