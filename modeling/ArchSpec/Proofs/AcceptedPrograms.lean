import ArchSpec.Proofs.DeclarationOrder
import ArchSpec.Proofs.WellFormed

/-!
# Accepted programs

The static check walks through the text of a program for calls.  Which calls there are
is said here without a walk: a piece of the text has parts, and a call occurs in a piece
that is the call or has a part in which it occurs.  The check accepts the programs with
distinct names and an entry point in which every call suits the subprogram that it
names, up to the one place where it does not look: the result types.
-/

namespace ArchSpec

/-- A piece of the text of a program. -/
inductive Node where
  | expr (expr : Expr)
  | slice (slice : SliceExpr)
  | ty (ty : Ty)
  | target (target : Target)
  | stmt (stmt : Stmt)
  | catcher (catcher : Catcher)

namespace Node

/-- The call that a piece is. -/
def call? : Node → Option Call
  | expr (.call callee args) => some ⟨callee, args.length, true⟩
  | stmt (.call callee args) => some ⟨callee, args.length, false⟩
  | _ => none

/-- The pieces of which a piece consists. -/
def parts : Node → List Node
  | expr (.literal _) => []
  | expr (.var _) => []
  | expr (.binary _ left right) => [expr left, expr right]
  | expr (.unary _ operand) => [expr operand]
  | expr (.call _ args) => args.map expr
  | expr (.slice source slices) => expr source :: slices.map slice
  | expr (.concat items) => items.map expr
  | expr (.cond test yes no) => [expr test, expr yes, expr no]
  | expr (.tuple items) => items.map expr
  | expr (.item source _) => [expr source]
  | expr (.record fields) => fields.map fun field => expr field.2
  | expr (.field source _) => [expr source]
  | expr (.exception _ fields) => fields.map fun field => expr field.2
  | slice (.single index) => [expr index]
  | slice (.range high low) => [expr high, expr low]
  | slice (.length start length) => [expr start, expr length]
  | ty .integer => []
  | ty .boolean => []
  | ty (.bits width) => [expr width]
  | ty .string => []
  | ty (.tuple items) => items.map ty
  | ty (.record fields) => fields.map fun field => ty field.2
  | ty (.exception fields) => fields.map fun field => ty field.2
  | ty (.named _) => []
  | target .discard => []
  | target (.var _) => []
  | target (.slice whole slices) => target whole :: slices.map slice
  | target (.field whole _) => [target whole]
  | target (.item whole _) => [target whole]
  | stmt .pass => []
  | stmt (.block stmts) => stmts.map stmt
  | stmt (.declare _ type init) => type.toList.map ty ++ init.toList.map expr
  | stmt (.assign place value) => [target place, expr value]
  | stmt (.call _ args) => args.map expr
  | stmt (.ret value) => value.toList.map expr
  | stmt (.branch test yes no) => [expr test, stmt yes, stmt no]
  | stmt (.count _ first last _ body) => [expr first, expr last, stmt body]
  | stmt (.loop test body) => [expr test, stmt body]
  | stmt (.assert test) => [expr test]
  | stmt (.raise exc) => exc.toList.map expr
  | stmt (.attempt body catchers otherwise) =>
      stmt body :: (catchers.map catcher ++ otherwise.toList.map stmt)
  | catcher (.mk _ _ body) => [stmt body]

/-- A call occurs in a piece of text. -/
inductive Contains : Node → Call → Prop where
  | here {node : Node} {call : Call} (hcall : node.call? = some call) : Contains node call
  | inside {node part : Node} {call : Call} (hpart : part ∈ node.parts)
      (hcall : Contains part call) : Contains node call

/-- The calls that the check finds. -/
def calls : Node → List Call
  | .expr piece => piece.calls
  | .slice piece => piece.calls
  | .ty piece => piece.calls
  | .target piece => piece.calls
  | .stmt piece => piece.calls
  | .catcher (.mk _ _ body) => body.calls

/-! ## The walk -/

/-- To walk through a list is to walk through its pieces. -/
theorem walk_eq {α : Type} {walk : List α → List Call} {piece : α → Node} (hnil : walk [] = [])
    (hcons : ∀ first rest, walk (first :: rest) = (piece first).calls ++ walk rest)
    (items : List α) : walk items = (items.map piece).flatMap calls := by
  induction items with
  | nil => exact hnil
  | cons first rest ih => rw [hcons, ih, List.map_cons, List.flatMap_cons]

theorem allCalls_exprs (exprs : List Expr) :
    Expr.allCalls exprs = (exprs.map expr).flatMap calls :=
  walk_eq rfl (fun _ _ => rfl) exprs

theorem fieldsCalls_exprs (fields : List (String × Expr)) :
    Expr.fieldsCalls fields = (fields.map fun field => expr field.2).flatMap calls :=
  walk_eq rfl (fun _ _ => rfl) fields

theorem allCalls_slices (slices : List SliceExpr) :
    SliceExpr.allCalls slices = (slices.map slice).flatMap calls :=
  walk_eq rfl (fun _ _ => rfl) slices

theorem allCalls_types (types : List Ty) : Ty.allCalls types = (types.map ty).flatMap calls :=
  walk_eq rfl (fun _ _ => rfl) types

theorem fieldsCalls_types (fields : List (String × Ty)) :
    Ty.fieldsCalls fields = (fields.map fun field => ty field.2).flatMap calls :=
  walk_eq rfl (fun _ _ => rfl) fields

theorem allCalls_stmts (stmts : List Stmt) :
    Stmt.allCalls stmts = (stmts.map stmt).flatMap calls :=
  walk_eq rfl (fun _ _ => rfl) stmts

theorem allCalls_catchers (catchers : List Catcher) :
    Catcher.allCalls catchers = (catchers.map catcher).flatMap calls :=
  walk_eq rfl (fun first _ => by cases first; rfl) catchers

theorem callsOf?_expr (init : Option Expr) :
    Expr.callsOf? init = (init.toList.map expr).flatMap calls := by
  cases init <;> simp [Expr.callsOf?, calls]

theorem callsOf?_ty (type : Option Ty) :
    Ty.callsOf? type = (type.toList.map ty).flatMap calls := by
  cases type <;> simp [Ty.callsOf?, calls]

/-- The walk finds the call that a piece is, and then those that it finds in the parts. -/
theorem calls_eq (node : Node) : node.calls = node.call?.toList ++ node.parts.flatMap calls := by
  cases node with
  | expr piece =>
      cases piece <;> simp only [calls, call?, parts, Expr.calls, allCalls_exprs,
        fieldsCalls_exprs, allCalls_slices, Option.toList_none, Option.toList_some,
        List.flatMap_cons, List.flatMap_nil, List.append_nil, List.nil_append,
        List.cons_append, List.append_assoc]
  | slice piece => cases piece <;> simp [calls, call?, parts, SliceExpr.calls]
  | ty piece =>
      cases piece <;> simp [calls, call?, parts, Ty.calls, allCalls_types, fieldsCalls_types]
  | target piece => cases piece <;> simp [calls, call?, parts, Target.calls, allCalls_slices]
  | stmt piece =>
      cases piece with
      | attempt body catchers otherwise =>
          cases otherwise <;> simp [calls, call?, parts, Stmt.calls, allCalls_catchers]
      | _ => simp [calls, call?, parts, Stmt.calls, allCalls_stmts, allCalls_exprs,
          callsOf?_expr, callsOf?_ty]
  | catcher piece =>
      rcases piece with ⟨binding, exception, body⟩
      simp [calls, call?, parts]

/-- Every call that the walk finds in a piece occurs there. -/
def Sound (node : Node) : Prop := ∀ call ∈ node.calls, node.Contains call

theorem sound_of_parts {node : Node} (hparts : ∀ part ∈ node.parts, part.Sound) : node.Sound := by
  intro call hcall
  rw [calls_eq, List.mem_append, Option.mem_toList, List.mem_flatMap] at hcall
  obtain hhere | ⟨part, hpart, hcall⟩ := hcall
  · exact .here hhere
  · exact .inside hpart (hparts part hpart call hcall)

end Node

open Node

mutual

theorem Expr.sound : ∀ piece : Expr, (expr piece).Sound
  | .literal _ | .var _ => sound_of_parts nofun
  | .unary _ operand | .item operand _ | .field operand _ =>
      sound_of_parts (List.forall_mem_singleton.mpr operand.sound)
  | .binary _ left right => sound_of_parts (by simp [parts, left.sound, right.sound])
  | .cond test yes no => sound_of_parts (by simp [parts, test.sound, yes.sound, no.sound])
  | .call _ items | .concat items | .tuple items => sound_of_parts (Expr.allSound items)
  | .record fields | .exception _ fields => sound_of_parts (Expr.fieldsSound fields)
  | .slice source slices =>
      sound_of_parts (List.forall_mem_cons.mpr ⟨source.sound, SliceExpr.allSound slices⟩)

theorem Expr.allSound : ∀ (exprs : List Expr), ∀ part ∈ exprs.map expr, part.Sound
  | [] => nofun
  | first :: rest => List.forall_mem_cons.mpr ⟨first.sound, Expr.allSound rest⟩

theorem Expr.fieldsSound : ∀ (fields : List (String × Expr)),
    ∀ part ∈ fields.map fun field => expr field.2, part.Sound
  | [] => nofun
  | (_, first) :: rest => List.forall_mem_cons.mpr ⟨first.sound, Expr.fieldsSound rest⟩

theorem SliceExpr.sound : ∀ piece : SliceExpr, (slice piece).Sound
  | .single index => sound_of_parts (List.forall_mem_singleton.mpr index.sound)
  | .range high low => sound_of_parts (by simp [parts, high.sound, low.sound])
  | .length start length => sound_of_parts (by simp [parts, start.sound, length.sound])

theorem SliceExpr.allSound : ∀ (slices : List SliceExpr), ∀ part ∈ slices.map slice, part.Sound
  | [] => nofun
  | first :: rest => List.forall_mem_cons.mpr ⟨first.sound, SliceExpr.allSound rest⟩

end

mutual

theorem Ty.sound : ∀ piece : Ty, (ty piece).Sound
  | .integer | .boolean | .string | .named _ => sound_of_parts nofun
  | .bits width => sound_of_parts (List.forall_mem_singleton.mpr width.sound)
  | .tuple items => sound_of_parts (Ty.allSound items)
  | .record fields | .exception fields => sound_of_parts (Ty.fieldsSound fields)

theorem Ty.allSound : ∀ (types : List Ty), ∀ part ∈ types.map ty, part.Sound
  | [] => nofun
  | first :: rest => List.forall_mem_cons.mpr ⟨first.sound, Ty.allSound rest⟩

theorem Ty.fieldsSound : ∀ (fields : List (String × Ty)),
    ∀ part ∈ fields.map fun field => ty field.2, part.Sound
  | [] => nofun
  | (_, first) :: rest => List.forall_mem_cons.mpr ⟨first.sound, Ty.fieldsSound rest⟩

end

theorem Target.sound : ∀ piece : Target, (target piece).Sound
  | .discard | .var _ => sound_of_parts nofun
  | .field whole _ | .item whole _ =>
      sound_of_parts (List.forall_mem_singleton.mpr whole.sound)
  | .slice whole slices =>
      sound_of_parts (List.forall_mem_cons.mpr ⟨whole.sound, SliceExpr.allSound slices⟩)

mutual

theorem Stmt.sound : ∀ piece : Stmt, (stmt piece).Sound
  | .pass => sound_of_parts nofun
  | .block stmts => sound_of_parts (Stmt.allSound stmts)
  | .declare _ type init =>
      sound_of_parts (List.forall_mem_append.mpr ⟨Ty.allSound _, Expr.allSound _⟩)
  | .assign place value => sound_of_parts (by simp [parts, place.sound, value.sound])
  | .call _ args => sound_of_parts (Expr.allSound args)
  | .ret value | .raise value => sound_of_parts (Expr.allSound value.toList)
  | .branch test yes no => sound_of_parts (by simp [parts, test.sound, yes.sound, no.sound])
  | .count _ first last _ body =>
      sound_of_parts (by simp [parts, first.sound, last.sound, body.sound])
  | .loop test body => sound_of_parts (by simp [parts, test.sound, body.sound])
  | .assert test => sound_of_parts (List.forall_mem_singleton.mpr test.sound)
  | .attempt body catchers none =>
      sound_of_parts (List.forall_mem_cons.mpr
        ⟨body.sound, List.forall_mem_append.mpr ⟨Catcher.allSound catchers, nofun⟩⟩)
  | .attempt body catchers (some otherwise) =>
      sound_of_parts (List.forall_mem_cons.mpr
        ⟨body.sound, List.forall_mem_append.mpr
          ⟨Catcher.allSound catchers, List.forall_mem_singleton.mpr otherwise.sound⟩⟩)

theorem Stmt.allSound : ∀ (stmts : List Stmt), ∀ part ∈ stmts.map stmt, part.Sound
  | [] => nofun
  | first :: rest => List.forall_mem_cons.mpr ⟨first.sound, Stmt.allSound rest⟩

theorem Catcher.allSound : ∀ (catchers : List Catcher), ∀ part ∈ catchers.map catcher, part.Sound
  | [] => nofun
  | .mk _ _ body :: rest =>
      List.forall_mem_cons.mpr
        ⟨sound_of_parts (List.forall_mem_singleton.mpr body.sound), Catcher.allSound rest⟩

end

/-- The walk finds exactly the calls that occur in a piece. -/
theorem Node.mem_calls_iff {node : Node} {call : Call} :
    call ∈ node.calls ↔ node.Contains call := by
  constructor
  · intro hcall
    cases node with
    | expr piece => exact piece.sound call hcall
    | slice piece => exact piece.sound call hcall
    | ty piece => exact piece.sound call hcall
    | target piece => exact piece.sound call hcall
    | stmt piece => exact piece.sound call hcall
    | catcher piece =>
        exact Catcher.allSound [piece] _ (List.mem_singleton_self _) call hcall
  · intro hcontains
    rw [calls_eq, List.mem_append, Option.mem_toList, List.mem_flatMap]
    induction hcontains with
    | here hcall => exact .inl hcall
    | @inside node part call hpart _ ih =>
        rw [← Option.mem_toList, ← List.mem_flatMap, ← List.mem_append, ← calls_eq] at ih
        exact .inr ⟨part, hpart, ih⟩

/-! ## Well-formed programs -/

/-- The text of a declaration that the check looks at. -/
def Decl.checkedText : Decl → List Node
  | .subprogram decl =>
      (match decl.body with
        | .stmt body => [.stmt body]
        | .primitive _ => []) ++ decl.args.map fun arg => .ty arg.2
  | .global decl => decl.init.toList.map .expr ++ decl.ty.toList.map .ty

/-- The result type of a declaration. -/
def Decl.resultText : Decl → List Node
  | .subprogram decl => decl.returns.toList.map .ty
  | .global _ => []

/-- All text of a declaration. -/
def Decl.text (decl : Decl) : List Node := decl.checkedText ++ decl.resultText

theorem Decl.map_call_callSites (decl : Decl) :
    decl.callSites.map CallSite.call = decl.checkedText.flatMap Node.calls := by
  cases decl with
  | global decl =>
      simp [callSites, checkedText, Global.calls, callsOf?_expr, callsOf?_ty, Function.comp_def]
  | subprogram decl =>
      simp only [callSites, checkedText, Subprogram.calls, List.map_map, List.flatMap_append,
        List.flatMap_map, Function.comp_def, List.map_id', Node.calls]
      cases decl.body <;> simp [Node.calls]

namespace Program

variable (program : Program)

/-- A call names a declared subprogram, is for no value if that is a procedure, and passes
as many arguments as are declared if it is no primitive. -/
def Suits (call : Call) : Prop :=
  ∃ decl ∈ program.subprograms, decl.name = call.callee ∧
    ¬(call.forValue = true ∧ decl.kind = .procedure) ∧
    (decl.isPrimitive = false → decl.args.length = call.argCount)

/-- Every call in some text of the declarations suits what it names. -/
def CallsSuit (text : Decl → List Node) : Prop :=
  ∀ decl ∈ program.decls, ∀ node ∈ text decl, ∀ call, node.Contains call → program.Suits call

/-- Names are distinct, there is an entry point, and the calls in some text suit what they
name. -/
structure WellFormed (text : Decl → List Node) : Prop where
  subprograms : (program.subprograms.map Subprogram.name).Nodup
  globals : (program.globals.map Global.name).Nodup
  main : entryPoint ∈ program.subprograms.map Subprogram.name
  calls : program.CallsSuit text

variable {program}

/-- With distinct names nothing is found wrong with a call exactly if it suits. -/
theorem checkCall_eq_none_iff (hdistinct : (program.subprograms.map Subprogram.name).Nodup)
    {site : CallSite} : program.table.checkCall site = none ↔ program.Suits site.call := by
  have hget {decl : Subprogram} : Named.get? program.table site.call.callee = some decl ↔
      decl ∈ program.subprograms ∧ decl.name = site.call.callee :=
    Table.get?_table_eq_some_iff hdistinct
  rw [Table.checkCall]
  cases hdecl : Named.get? program.table site.call.callee with
  | none =>
      refine iff_of_false (Option.some_ne_none _) ?_
      rintro ⟨decl, hmem, hname, _⟩
      rw [hget.mpr ⟨hmem, hname⟩] at hdecl
      cases hdecl
  | some decl =>
      obtain ⟨hmem, hname⟩ := hget.mp hdecl
      have hsuits : program.Suits site.call ↔
          ¬(site.call.forValue = true ∧ decl.kind = .procedure) ∧
            (decl.isPrimitive = false → decl.args.length = site.call.argCount) := by
        constructor
        · rintro ⟨other, hother, hcallee, hsuits⟩
          have hsame := hdecl.symm.trans (hget.mpr ⟨hother, hcallee⟩)
          exact Option.some.inj hsame ▸ hsuits
        · exact fun hsuits => ⟨decl, hmem, hname, hsuits⟩
      rw [hsuits]
      by_cases hvalue : site.call.forValue = true ∧ decl.kind = .procedure
      · simp [hvalue]
      · by_cases hprimitive : decl.isPrimitive = true <;> simp [hvalue, hprimitive]

/-- Nothing is found wrong with the calls that are checked exactly if they suit. -/
theorem checkCalls_eq_nil_iff (hdistinct : (program.subprograms.map Subprogram.name).Nodup) :
    program.callSites.filterMap program.table.checkCall = [] ↔
      program.CallsSuit Decl.checkedText := by
  have hdecl (decl : Decl) : (∀ site ∈ decl.callSites, program.Suits site.call) ↔
      ∀ node ∈ decl.checkedText, ∀ call, node.Contains call → program.Suits call := by
    calc
      _ ↔ ∀ call ∈ decl.callSites.map CallSite.call, program.Suits call := by
        rw [List.forall_mem_map]
      _ ↔ _ := by
        rw [decl.map_call_callSites]
        simp only [List.forall_mem_flatMap, Node.mem_calls_iff]
  rw [List.filterMap_eq_nil_iff, callSites, List.forall_mem_flatMap, CallsSuit]
  simp only [checkCall_eq_none_iff hdistinct, hdecl]

/-- The check accepts exactly the programs that are well-formed where it looks. -/
theorem accepted_iff_wellFormed : program.Accepted ↔ program.WellFormed Decl.checkedText := by
  have hmain : (if (program.subprograms.map Subprogram.name).contains entryPoint then []
      else [Finding.noMain]) = [] ↔ entryPoint ∈ program.subprograms.map Subprogram.name := by
    rw [ite_eq_left_iff, List.contains_iff_mem]
    simp
  rw [accepted_iff, findings]
  simp only [List.append_eq_nil_iff, List.map_eq_nil_iff, Named.repeats_eq_nil_iff, hmain]
  constructor
  · rintro ⟨⟨⟨hsubprograms, hglobals⟩, hmain⟩, hcalls⟩
    exact ⟨hsubprograms, hglobals, hmain, (checkCalls_eq_nil_iff hsubprograms).mp hcalls⟩
  · intro hprogram
    exact ⟨⟨⟨hprogram.subprograms, hprogram.globals⟩, hprogram.main⟩,
      (checkCalls_eq_nil_iff hprogram.subprograms).mpr hprogram.calls⟩

theorem wellFormed_text_iff :
    program.WellFormed Decl.text ↔
      program.WellFormed Decl.checkedText ∧ program.CallsSuit Decl.resultText := by
  have hcalls : program.CallsSuit Decl.text ↔
      program.CallsSuit Decl.checkedText ∧ program.CallsSuit Decl.resultText := by
    simp only [CallsSuit, Decl.text, List.forall_mem_append, ← forall_and]
  constructor
  · rintro ⟨hsubprograms, hglobals, hmain, htext⟩
    obtain ⟨hchecked, hresults⟩ := hcalls.mp htext
    exact ⟨⟨hsubprograms, hglobals, hmain, hchecked⟩, hresults⟩
  · rintro ⟨⟨hsubprograms, hglobals, hmain, hchecked⟩, hresults⟩
    exact ⟨hsubprograms, hglobals, hmain, hcalls.mpr ⟨hchecked, hresults⟩⟩

/-- The check accepts the programs that are well-formed apart from their result types, so
it accepts exactly the well-formed ones among those whose result types have no call that
does not suit. -/
theorem accepted_iff_wellFormed_text (program : Program) :
    (program.Accepted ↔ program.WellFormed Decl.checkedText) ∧
      ((program.Accepted ↔ program.WellFormed Decl.text) ↔
        (program.Accepted → program.CallsSuit Decl.resultText)) := by
  refine ⟨accepted_iff_wellFormed, ?_⟩
  rw [wellFormed_text_iff, ← accepted_iff_wellFormed]
  constructor
  · exact fun hiff haccepted => (hiff.mp haccepted).2
  · exact fun hresults => ⟨fun haccepted => ⟨haccepted, hresults haccepted⟩, And.left⟩

/-- An entry point whose result is as wide as a subprogram says that is not there. -/
def unboundedResult : Program :=
  ⟨[.subprogram (.ofFunction entryPoint [] (.bits (.call "missing" []))
    (.ret (some (.literal (.int 0)))))]⟩

/-- It is accepted all the same. -/
theorem unboundedResult_accepted :
    unboundedResult.Accepted ∧ ¬unboundedResult.WellFormed Decl.text := by
  refine ⟨⟨_, rfl⟩, fun hprogram => ?_⟩
  have hcontains : Node.Contains (.ty (.bits (.call "missing" []))) ⟨"missing", 0, true⟩ :=
    .inside (List.mem_singleton_self _) (.here rfl)
  obtain ⟨decl, hdecl, hname, _⟩ := hprogram.calls _ (List.mem_singleton_self _)
    (.ty (.bits (.call "missing" []))) (by simp [Decl.text, Decl.resultText, Subprogram.ofFunction])
    _ hcontains
  obtain rfl := List.mem_singleton.mp hdecl
  exact absurd hname (by decide)

end Program

end ArchSpec
