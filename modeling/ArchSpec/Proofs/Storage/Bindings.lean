import ArchSpec.Proofs.Storage.Frames
import ArchSpec.Proofs.Storage.Rebinding

/-!
# Which variables there are

A variable comes to be in a scope: that of the activation that declares it, or
global storage while globals are initialised.  To declare a variable adds one
binding to those that there are, and no other way to change a storage adds any.
-/

namespace ArchSpec

variable {α : Type} {name other : String} {value new : α}

/-- Where a variable that is accessed in a scope came to be. -/
def Scope.origin : Scope → Scope
  | .global _ => .global true
  | .activation subprogram number => .activation subprogram number

/-- What is found under a name after another value was given to one that was found
before. -/
theorem isSome_of_overwritten {find find' : String → Option α} {old : α}
    (hfind : find' other = if name = other then some new else find other)
    (hold : find name = some old) (hsome : (find' other).isSome) : (find other).isSome := by
  rw [hfind] at hsome
  by_cases hother : name = other
  · rw [← hother, hold]
    rfl
  · rwa [if_neg hother] at hsome

namespace Frame

theorem get?_declare (frame : Frame α) (name other : String) (value : α) :
    (frame.declare name value).get? other =
      if name = other then some value else frame.get? other := by
  rcases frame with ⟨scope, _ | ⟨block, rest⟩, parameters⟩
  · exact Named.get?_insert parameters name other value
  · simp only [declare, get?, Blocks.get?, Named.get?_insert]
    by_cases hname : name = other
    · simp only [if_pos hname]
    · simp only [if_neg hname]

/-- What a name finds outside a block it finds inside, unless it finds another
variable there. -/
theorem isSome_of_tail {frame : Frame α}
    (hname : (({ frame with inner := frame.inner.tail } : Frame α).get? name).isSome) :
    (frame.get? name).isSome := by
  rcases frame with ⟨scope, _ | ⟨block, rest⟩, parameters⟩
  · exact hname
  · rw [get?, Blocks.get?]
    cases Named.get? block name with
    | some value => rfl
    | none => exact hname

end Frame

namespace Storage

/-- There is a variable with a name, which came to be in a scope. -/
inductive Binds (storage : Storage α) (name : String) : Scope → Prop where
  | ofFrame {frame : Frame α} (hframe : frame ∈ storage.frames)
      (hname : (frame.get? name).isSome) : Binds storage name frame.scope
  | ofGlobal (hname : (Named.get? storage.globals name).isSome) :
      Binds storage name (.global true)

variable {storage updated : Storage α} {frame : Frame α} {rest : List (Frame α)}
variable {scope found : Scope}

theorem mem_of_frames (hframes : storage.frames = frame :: rest) : frame ∈ storage.frames := by
  rw [hframes]
  exact List.mem_cons_self ..

/-- A change of the current frame that keeps its scope adds only the bindings
that it adds there. -/
theorem binds_of_current {changed : Frame α}
    (hframes : storage.frames = frame :: rest) (hscope : changed.scope = frame.scope)
    (hbinds : Binds { storage with frames := changed :: rest } other scope) :
    Binds storage other scope ∨ scope = frame.scope ∧ (changed.get? other).isSome := by
  cases hbinds with
  | ofGlobal hname => exact .inl (.ofGlobal hname)
  | @ofFrame bound hmem hname =>
      rcases List.mem_cons.mp hmem with rfl | hmem
      · exact .inr ⟨hscope, hname⟩
      · refine .inl (.ofFrame ?_ hname)
        rw [hframes]
        exact List.mem_cons_of_mem frame hmem

theorem binds_of_declareGlobal (hbinds : (storage.declareGlobal name value).Binds other scope) :
    storage.Binds other scope ∨ other = name ∧ scope = .global true := by
  cases hbinds with
  | ofFrame hframe hname => exact .inl (.ofFrame hframe hname)
  | ofGlobal hname =>
      change (Named.get? (Named.insert storage.globals name value) other).isSome at hname
      rw [Named.get?_insert] at hname
      by_cases hother : name = other
      · exact .inr ⟨hother.symm, rfl⟩
      · rw [if_neg hother] at hname
        exact .inl (.ofGlobal hname)

/-- In an activation or an initialiser, the variable that is declared comes to be
in the current scope. -/
theorem binds_of_declare (hcurrent : storage.frames ≠ [] ∨ storage.initialising = true)
    (hbinds : (storage.declare name value).Binds other scope) :
    storage.Binds other scope ∨ other = name ∧ scope = storage.currentScope := by
  cases hframes : storage.frames with
  | nil =>
      have hinitialising := hcurrent.resolve_left fun hsome => hsome hframes
      simp only [declare, hframes] at hbinds
      simp only [currentScope, hframes, globalScope, hinitialising]
      exact binds_of_declareGlobal hbinds
  | cons frame rest =>
      simp only [declare, hframes] at hbinds
      simp only [currentScope, hframes]
      rcases binds_of_current hframes (frame.shape_declare name value).1 hbinds with
        hold | ⟨rfl, hname⟩
      · exact .inl hold
      · rw [Frame.get?_declare] at hname
        by_cases hother : name = other
        · exact .inr ⟨hother.symm, rfl⟩
        · rw [if_neg hother] at hname
          exact .inl (.ofFrame (mem_of_frames hframes) hname)

theorem binds_of_assignGlobal (hassign : storage.assignGlobal name new = some (updated, found))
    (hbinds : updated.Binds other scope) : storage.Binds other scope := by
  rw [assignGlobal, Option.map_eq_some_iff] at hassign
  obtain ⟨globals, hglobals, hpair⟩ := hassign
  obtain ⟨rfl, _⟩ := Prod.mk.inj hpair
  cases hbinds with
  | ofFrame hframe hname => exact .ofFrame hframe hname
  | ofGlobal hname =>
      obtain ⟨old, hold, _⟩ := Named.rebound_of_replace? hglobals
      exact .ofGlobal (isSome_of_overwritten (Named.get?_of_replace? hglobals) hold hname)

theorem binds_of_assign (hassign : storage.assign name new = some (updated, found))
    (hbinds : updated.Binds other scope) : storage.Binds other scope := by
  rw [assign] at hassign
  cases hframes : storage.frames with
  | nil =>
      rw [hframes] at hassign
      exact binds_of_assignGlobal hassign hbinds
  | cons frame rest =>
      simp only [hframes] at hassign
      cases hframe : frame.replace? name new with
      | none =>
          rw [hframe] at hassign
          exact binds_of_assignGlobal hassign hbinds
      | some changed =>
          simp only [hframe, Option.some.injEq, Prod.mk.injEq] at hassign
          obtain ⟨rfl, _⟩ := hassign
          rcases binds_of_current hframes (Frame.shape_of_replace? hframe).1 hbinds with
            hold | ⟨rfl, hname⟩
          · exact hold
          · obtain ⟨old, hold, _⟩ := Frame.rebound_of_replace? hframe
            exact .ofFrame (mem_of_frames hframes)
              (isSome_of_overwritten (Frame.get?_of_replace? hframe) hold hname)

/-- Blocks that are entered and left add no bindings. -/
theorem binds_of_onFrame {change : Frame α → Frame α}
    (hscope : ∀ frame, (change frame).scope = frame.scope)
    (hchange : ∀ frame, ((change frame).get? other).isSome → (frame.get? other).isSome)
    (hbinds : (storage.onFrame change).Binds other scope) : storage.Binds other scope := by
  cases hframes : storage.frames with
  | nil =>
      simp only [onFrame, hframes] at hbinds
      exact hbinds
  | cons frame rest =>
      simp only [onFrame, hframes] at hbinds
      rcases binds_of_current hframes (hscope frame) hbinds with hold | ⟨rfl, hname⟩
      · exact hold
      · exact .ofFrame (mem_of_frames hframes) (hchange frame hname)

theorem binds_of_pushBlock (hbinds : storage.pushBlock.Binds other scope) :
    storage.Binds other scope := by
  refine binds_of_onFrame ?_ ?_ hbinds
  · exact fun _ => rfl
  · exact fun _ hname => hname

theorem binds_of_popBlock (hbinds : storage.popBlock.Binds other scope) :
    storage.Binds other scope := by
  refine binds_of_onFrame ?_ ?_ hbinds
  · exact fun _ => rfl
  · exact fun _ hname => Frame.isSome_of_tail hname

/-- A new activation has no variables yet. -/
theorem binds_of_pushFrame {subprogram : String}
    (hbinds : (storage.pushFrame subprogram).Binds other scope) : storage.Binds other scope := by
  cases hbinds with
  | ofGlobal hname => exact .ofGlobal hname
  | ofFrame hmem hname =>
      rcases List.mem_cons.mp hmem with rfl | hmem
      · nomatch hname
      · exact .ofFrame hmem hname

theorem binds_of_popFrame (hbinds : storage.popFrame.Binds other scope) :
    storage.Binds other scope := by
  cases hbinds with
  | ofGlobal hname => exact .ofGlobal hname
  | ofFrame hmem hname => exact .ofFrame (List.mem_of_mem_tail hmem) hname

theorem binds_of_setInitialising {initialising : Bool}
    (hbinds : (storage.setInitialising initialising).Binds other scope) :
    storage.Binds other scope := by
  cases hbinds with
  | ofGlobal hname => exact .ofGlobal hname
  | ofFrame hmem hname => exact .ofFrame hmem hname

theorem scopes_onFrame {change : Frame α → Frame α}
    (hscope : ∀ frame, (change frame).scope = frame.scope) :
    (storage.onFrame change).frames.map Frame.scope = storage.frames.map Frame.scope := by
  rw [onFrame]
  cases hframes : storage.frames with
  | nil => simp only [hframes]
  | cons frame rest => simp only [List.map_cons, hscope]

theorem binds_of_lookupGlobal (hlookup : storage.lookupGlobal name = some (value, scope)) :
    storage.Binds name scope.origin := by
  rw [lookupGlobal, Option.map_eq_some_iff] at hlookup
  obtain ⟨_, hget, hpair⟩ := hlookup
  obtain ⟨_, rfl⟩ := Prod.mk.inj hpair
  exact .ofGlobal (Option.isSome_of_eq_some hget)

/-- What a name finds is a variable that there is. -/
theorem binds_of_lookup
    (hscopes : ∀ scope ∈ storage.frames.map Frame.scope, scope.origin = scope)
    (hlookup : storage.lookup name = some (value, scope)) : storage.Binds name scope.origin := by
  rw [lookup] at hlookup
  cases hframes : storage.frames with
  | nil =>
      rw [hframes] at hlookup
      exact binds_of_lookupGlobal hlookup
  | cons frame rest =>
      simp only [hframes] at hlookup
      cases hget : frame.get? name with
      | none =>
          rw [hget] at hlookup
          exact binds_of_lookupGlobal hlookup
      | some found =>
          simp only [hget, Option.some.injEq, Prod.mk.injEq] at hlookup
          obtain ⟨_, rfl⟩ := hlookup
          have hmem := mem_of_frames hframes
          rw [hscopes frame.scope (List.mem_map_of_mem hmem)]
          exact .ofFrame hmem (Option.isSome_of_eq_some hget)

end Storage

end ArchSpec
