import ArchSpec.Proofs.BlockLocals
import ArchSpec.Proofs.Storage.Bindings
import ArchSpec.Proofs.Storage.Shadowing

/-!
# Locals that are not assigned

A local variable keeps its value over a statement that neither assigns nor declares
its name.  Other variables may have the same name meanwhile: the index of a loop, an
exception that a handler binds, and the parameters and locals of everything that is
called, another activation of the same subprogram included.  They live in blocks and
frames of their own, and all of these are gone when the statement has ended.
-/

namespace ArchSpec

variable {α : Type} {name : String} {value : α} {assigned : List String}

/-- Blocks that are kept have the same value under a name that is not assigned. -/
theorem Blocks.same_of_kept {before after : List (Named α)} (hname : name ∉ assigned)
    (hkept : List.Forall₂ (Named.Kept assigned) before after) : Blocks.Same name before after :=
  hkept.imp fun _ _ hblock => hblock.values name hname

namespace Frame

variable {frame before after : Frame α}

/-- A frame in which every name that is neither assigned nor declared finds what it
found before. -/
structure Agrees (changes : List String) (before after : Frame α) : Prop where
  scope : after.scope = before.scope
  values : ∀ name ∉ changes, after.get? name = before.get? name

theorem SameLocals.agrees (hsame : SameLocals assigned before after) :
    Agrees assigned before after where
  scope := hsame.scope
  values name hname := by
    have hblocks := (Blocks.same_of_kept hname hsame.blocks).get?
    rwa [get?_blocks, get?_blocks] at hblocks

theorem agrees_declare (frame : Frame α) (name : String) (value : α) :
    Agrees [name] frame (frame.declare name value) where
  scope := frame.scope_declare name value
  values other hother := by
    rw [get?_declare, if_neg]
    rintro rfl
    exact hother (List.mem_singleton_self name)

theorem Agrees.mono {changes changes' : List String} (hagrees : Agrees changes before after)
    (hchanges : changes ⊆ changes') : Agrees changes' before after :=
  ⟨hagrees.scope, fun name hname => hagrees.values name fun hmem => hname (hchanges hmem)⟩

end Frame

/-- A name that is bound in the current frame finds its value there. -/
theorem Storage.lookup_of_frames {storage : Storage α} {frame : Frame α} {rest : List (Frame α)}
    (hframes : storage.frames = frame :: rest) (hvalue : frame.get? name = some value) :
    storage.lookup name = some (value, frame.scope) := by
  simp only [lookup, hframes, hvalue]

mutual

/-- The names that are declared in a statement, at any depth. -/
def Stmt.declarations : Stmt → List String
  | .pass => []
  | .block stmts => Stmt.allDeclarations stmts
  | .declare name .. => [name]
  | .assign .. => []
  | .call .. => []
  | .ret _ => []
  | .branch _ yes no => yes.declarations ++ no.declarations
  | .count _ _ _ _ body => body.declarations
  | .loop _ body => body.declarations
  | .assert _ => []
  | .raise _ => []
  | .attempt body catchers none => body.declarations ++ Catcher.allDeclarations catchers
  | .attempt body catchers (some otherwise) =>
      body.declarations ++ Catcher.allDeclarations catchers ++ otherwise.declarations

def Stmt.allDeclarations : List Stmt → List String
  | [] => []
  | first :: rest => first.declarations ++ Stmt.allDeclarations rest

def Catcher.allDeclarations : List Catcher → List String
  | [] => []
  | .mk _ _ body :: rest => body.declarations ++ Catcher.allDeclarations rest

end

/-- The variable that stays after a statement is one that is declared in it. -/
theorem Stmt.mem_declarations_of_declared {context : Context} {name : String} {value : Value} :
    ∀ (stmt : Stmt) {state : State}, stmt.declared context state = some (name, value) →
      name ∈ stmt.declarations
  | .declare declared ty init, state, hdeclared => by
      rw [Stmt.declared] at hdeclared
      split at hdeclared
      · obtain ⟨rfl, _⟩ := Prod.mk.inj (Option.some.inj hdeclared)
        exact List.mem_singleton_self declared
      · cases hdeclared
  | .attempt body catchers none, state, hdeclared =>
      List.mem_append_left _ (body.mem_declarations_of_declared hdeclared)
  | .attempt body catchers (some otherwise), state, hdeclared =>
      List.mem_append_left _
        (List.mem_append_left _ (body.mem_declarations_of_declared hdeclared))

namespace Eval

variable {subprograms : String → Option Subprogram} {unroll bound rounds : Nat} {stmt : Stmt}
variable {before after : State} {outcome : Outcome Flow}
variable {frame : Frame Value} {rest : List (Frame Value)}

/-- Without a fault, the current frame has changed in what the statement assigns or
declares. -/
theorem agrees_of_exec (hframes : before.storage.frames = frame :: rest)
    (hrun : stmt.exec ⟨callWithin subprograms unroll bound, rounds, unroll⟩ before =
      (outcome, after))
    (hnonfatal : outcome.Nonfatal) :
    ∃ changed, after.storage.frames = changed :: rest ∧
      frame.Agrees (stmt.assigned ++ stmt.declarations) changed := by
  obtain ⟨changed, hafter, hlocals⟩ :=
    Stmt.exec_locals (keeps_callWithin subprograms unroll bound) hframes hrun hnonfatal
  refine ⟨changed, hafter, ?_⟩
  split at hlocals
  · next name value hdeclared =>
      have hmem := stmt.mem_declarations_of_declared hdeclared
      rw [hlocals]
      exact (frame.agrees_declare name value).mono
        (List.cons_subset.mpr ⟨List.mem_append_right _ hmem, List.nil_subset _⟩)
  · exact hlocals.agrees.mono (List.subset_append_left _ _)

end Eval

/-- However a statement ends, except with a fault, a variable of the current
activation that it neither assigns nor declares has the value and the scope that it
had before. -/
theorem Stmt.lookup_unassigned (subprograms : String → Option Subprogram)
    (unroll bound rounds : Nat) (stmt : Stmt) {before after : State} {outcome : Outcome Flow}
    {frame : Frame Value} {rest : List (Frame Value)} {name : String} {value : Value}
    (hframes : before.storage.frames = frame :: rest) (hvalue : frame.get? name = some value)
    (hassigned : name ∉ stmt.assigned) (hdeclarations : name ∉ stmt.declarations)
    (hrun : stmt.exec ⟨Eval.callWithin subprograms unroll bound, rounds, unroll⟩ before =
      (outcome, after))
    (hnonfatal : outcome.Nonfatal) :
    before.storage.lookup name = some (value, frame.scope) ∧
      after.storage.lookup name = some (value, frame.scope) := by
  refine ⟨Storage.lookup_of_frames hframes hvalue, ?_⟩
  obtain ⟨changed, hafter, hagrees⟩ := Eval.agrees_of_exec hframes hrun hnonfatal
  have hname : name ∉ stmt.assigned ++ stmt.declarations := fun hmem =>
    (List.mem_append.mp hmem).elim hassigned hdeclarations
  have hkept : changed.get? name = some value := (hagrees.values name hname).trans hvalue
  rw [Storage.lookup_of_frames hafter hkept, hagrees.scope]

/-- A procedure that counts its parameter down by calling itself, and throws at zero. -/
def Table.descending : Table :=
  [("descend", .ofProcedure "descend" [("x", .integer)] (.branch
    (.binary .eq (.var "x") (.literal (.int 0)))
    (.raise (some (.exception "Bottom" [])))
    (.block [
      .assign (.var "x") (.binary .sub (.var "x") (.literal (.int 1))),
      .call "descend" [.var "x"]])))]

/-- A loop over `x` that calls the procedure and binds what it throws to `x`. -/
def Stmt.descents : Stmt :=
  .count "x" (.literal (.int 0)) (.literal (.int 1)) false
    (.attempt (.call "descend" [.var "x"]) [.mk (some "x") "Bottom" .pass] none)

/-- A state inside the procedure. -/
def State.descending : State :=
  (State.start false).onStorage fun storage =>
    (storage.pushFrame "descend").declare "x" (.int 5)

/-- None of the other variables with the name is left. -/
theorem lookup_descents :
    ∃ after, Stmt.descents.exec
        ⟨Eval.callWithin (Named.get? Table.descending) 0 3, 0, 0⟩ .descending =
        (.done .next, after) ∧
      after.storage.lookup "x" = some (.int 5, .activation "descend" 1) := by
  have hframes : State.descending.storage.frames = [_] := rfl
  refine ⟨_, rfl, ?_⟩
  exact (Stmt.lookup_unassigned (Named.get? Table.descending) 0 3 0 .descents hframes rfl
    (by decide) (by decide) rfl trivial).2

end ArchSpec
