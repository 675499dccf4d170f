import ArchSpec.Proofs.Storage.Shadowing

/-!
# Empty blocks

A frame may have a block that binds nothing between its other blocks.  Names find
the same without it, and assignments reach the same variables.  Only a declaration
in that block itself would tell the difference, so there has to be another block
inside it wherever a variable of its frame is declared.
-/

namespace ArchSpec

variable {α : Type} {outer below : Nat} {name : String} {value : α}

namespace Frame

/-- The second frame has an empty block more, with so many others around it, that of
the parameters apart. -/
inductive Padded (outer : Nat) : Frame α → Frame α → Prop where
  | mk (scope : Scope) (top bottom : List (Named α)) (parameters : Named α)
      (houter : bottom.length = outer) :
      Padded outer ⟨scope, top ++ bottom, parameters⟩ ⟨scope, top ++ [] :: bottom, parameters⟩

/-- One frame is padded, with so many frames below it. -/
inductive PaddedBelow (below outer : Nat) : List (Frame α) → List (Frame α) → Prop where
  | current {frame padded : Frame α} {rest : List (Frame α)} (hframe : Padded outer frame padded)
      (hbelow : rest.length = below) : PaddedBelow below outer (frame :: rest) (padded :: rest)
  | under {frames padded : List (Frame α)} (frame : Frame α)
      (hframes : PaddedBelow below outer frames padded) :
      PaddedBelow below outer (frame :: frames) (frame :: padded)

/-- To enter a block is to pad the frame. -/
theorem padded_enter (frame : Frame α) : Padded frame.inner.length frame (frame.enter []) :=
  .mk frame.scope [] frame.inner frame.parameters rfl

namespace Padded

variable {frame padded changed : Frame α}

theorem scope_eq (hpadded : Padded outer frame padded) : padded.scope = frame.scope := by
  cases hpadded
  rfl

theorem get?_eq (hpadded : Padded outer frame padded) (name : String) :
    padded.get? name = frame.get? name := by
  cases hpadded
  simp only [get?, Blocks.get?_append, Blocks.get?, Named.get?]

theorem replace?_eq_none (hpadded : Padded outer frame padded)
    (hreplace : frame.replace? name value = none) : padded.replace? name value = none := by
  rw [replace?_eq_none_iff] at hreplace ⊢
  rw [hpadded.get?_eq, hreplace]

theorem exists_replace? (hpadded : Padded outer frame padded)
    (hreplace : frame.replace? name value = some changed) :
    ∃ changed', padded.replace? name value = some changed' ∧ Padded outer changed changed' := by
  rcases hpadded with ⟨scope, top, bottom, parameters, houter⟩
  simp only [replace?, Blocks.replace?_append] at hreplace
  simp only [replace?, Blocks.replace?_append, Blocks.replace?, Named.replace?]
  cases htop : Blocks.replace? top name value with
  | some top' =>
      simp only [htop, Option.some.injEq] at hreplace
      subst hreplace
      exact ⟨_, rfl, .mk scope top' bottom parameters houter⟩
  | none =>
      simp only [htop] at hreplace ⊢
      cases hbottom : Blocks.replace? bottom name value with
      | some bottom' =>
          simp only [hbottom, Option.map_some, Option.some.injEq] at hreplace
          subst hreplace
          exact ⟨_, rfl, .mk scope top bottom' parameters
            ((Blocks.length_of_replace? hbottom).trans houter)⟩
      | none =>
          simp only [hbottom, Option.map_none, Option.map_eq_some_iff] at hreplace
          obtain ⟨parameters', hparameters, rfl⟩ := hreplace
          exact ⟨_, by rw [hparameters]; rfl, .mk scope top bottom parameters' houter⟩

/-- What is declared inside the empty block. -/
theorem declare (hpadded : Padded outer frame padded) (hinside : outer < frame.inner.length) :
    Padded outer (frame.declare name value) (padded.declare name value) := by
  rcases hpadded with ⟨scope, top, bottom, parameters, houter⟩
  cases top with
  | nil => exact absurd hinside (by simp [houter])
  | cons block top =>
      exact .mk scope (Named.insert block name value :: top) bottom parameters houter

theorem enter (hpadded : Padded outer frame padded) (block : Named α) :
    Padded outer (frame.enter block) (padded.enter block) := by
  rcases hpadded with ⟨scope, top, bottom, parameters, houter⟩
  exact .mk scope (block :: top) bottom parameters houter

/-- To leave a block that is inside the empty one. -/
theorem leave (hpadded : Padded outer frame padded) (hinside : outer < frame.inner.length) :
    Padded outer { frame with inner := frame.inner.tail }
      { padded with inner := padded.inner.tail } := by
  rcases hpadded with ⟨scope, top, bottom, parameters, houter⟩
  cases top with
  | nil => exact absurd hinside (by simp [houter])
  | cons block top => exact .mk scope top bottom parameters houter

/-- To leave the empty block itself. -/
theorem leave_eq (hpadded : Padded outer frame padded) (hlength : frame.inner.length = outer) :
    { padded with inner := padded.inner.tail } = frame := by
  rcases hpadded with ⟨scope, top, bottom, parameters, houter⟩
  have htop : top = [] := by
    rw [List.length_append] at hlength
    exact List.length_eq_zero_iff.mp (by omega)
  subst htop
  rfl

theorem length_le (hpadded : Padded outer frame padded) : outer ≤ frame.inner.length := by
  rcases hpadded with ⟨scope, top, bottom, parameters, houter⟩
  rw [List.length_append]
  omega

end Padded

theorem PaddedBelow.lt_length {frames padded : List (Frame α)}
    (hpadded : PaddedBelow below outer frames padded) : below < frames.length := by
  induction hpadded with
  | current _ hbelow => rw [List.length_cons]; omega
  | under _ _ ih => rw [List.length_cons]; omega

end Frame

namespace Storage

/-- The second storage has an empty block more in one of its frames. -/
inductive Padded (below outer : Nat) : Storage α → Storage α → Prop where
  | mk {globals : Named α} {frames frames' : List (Frame α)} {activations : Named UInt32}
      {initialising : Bool} (hframes : Frame.PaddedBelow below outer frames frames') :
      Padded below outer ⟨globals, frames, activations, initialising⟩
        ⟨globals, frames', activations, initialising⟩

/-- If the frame with so many others below it is the current one, it is inside more
than so many blocks. -/
def Inside (below outer : Nat) (storage : Storage α) : Prop :=
  ∀ frame rest, storage.frames = frame :: rest → rest.length = below → outer < frame.inner.length

variable {before after storage padded updated : Storage α} {scope : Scope}

theorem Inside.of_sameFrames (hinside : Inside below outer before)
    (hsame : SameFrames before after) : Inside below outer after := by
  intro frame rest hframes hbelow
  obtain ⟨hscopes, hblocks, htail⟩ := hsame
  rw [hframes] at hscopes hblocks htail
  cases hbefore : before.frames with
  | nil =>
      rw [hbefore] at hscopes
      nomatch hscopes
  | cons frame' rest' =>
      rw [hbefore] at hblocks htail
      have hrest : rest = rest' := htail
      have hlength := hinside frame' rest' hbefore (hrest ▸ hbelow)
      have hcount : frame.inner.length + 1 = frame'.inner.length + 1 :=
        (List.cons.inj hblocks).1
      omega

/-- A frame is padded by entering a block of it. -/
theorem padded_pushBlock {frame : Frame α} {rest : List (Frame α)}
    (hframes : storage.frames = frame :: rest) :
    Padded rest.length frame.inner.length storage storage.pushBlock := by
  rcases storage with ⟨globals, frames, activations, initialising⟩
  obtain rfl : frames = frame :: rest := hframes
  exact .mk (.current frame.padded_enter rfl)

namespace Padded

theorem lookup_eq (hpadded : Padded below outer storage padded) (name : String) :
    padded.lookup name = storage.lookup name := by
  rcases hpadded with ⟨hframes⟩
  cases hframes with
  | current hframe _ =>
      simp only [lookup, hframe.get?_eq, hframe.scope_eq]
      rfl
  | under frame _ => rfl

theorem currentScope_eq (hpadded : Padded below outer storage padded) :
    padded.currentScope = storage.currentScope := by
  rcases hpadded with ⟨hframes⟩
  cases hframes with
  | current hframe _ => exact hframe.scope_eq
  | under frame _ => rfl

theorem assign_eq_none (hpadded : Padded below outer storage padded)
    (hassign : storage.assign name value = none) : padded.assign name value = none := by
  rw [assign_eq_none_iff] at hassign ⊢
  rw [hpadded.lookup_eq, hassign]

theorem assignGlobal (hpadded : Padded below outer storage padded)
    (hassign : storage.assignGlobal name value = some (updated, scope)) :
    ∃ updated', padded.assignGlobal name value = some (updated', scope) ∧
      Padded below outer updated updated' := by
  rcases hpadded with ⟨hframes⟩
  simp only [Storage.assignGlobal, Option.map_eq_some_iff, Prod.mk.injEq] at hassign ⊢
  obtain ⟨globals, hglobals, rfl, rfl⟩ := hassign
  exact ⟨_, ⟨globals, hglobals, rfl, rfl⟩, .mk hframes⟩

theorem assign (hpadded : Padded below outer storage padded)
    (hassign : storage.assign name value = some (updated, scope)) :
    ∃ updated', padded.assign name value = some (updated', scope) ∧
      Padded below outer updated updated' := by
  have hglobal : storage.assignGlobal name value = some (updated, scope) → _ :=
    hpadded.assignGlobal
  rcases hpadded with ⟨hframes⟩
  cases hframes with
  | @current frame frame' rest hframe hbelow =>
      simp only [Storage.assign] at hassign ⊢
      cases hreplace : frame.replace? name value with
      | none =>
          simp only [hreplace] at hassign
          rw [hframe.replace?_eq_none hreplace]
          exact hglobal hassign
      | some changed =>
          simp only [hreplace, Option.some.injEq, Prod.mk.injEq] at hassign
          obtain ⟨rfl, rfl⟩ := hassign
          obtain ⟨changed', hreplace', hchanged⟩ := hframe.exists_replace? hreplace
          refine ⟨_, ?_, .mk (.current hchanged hbelow)⟩
          simp only [hreplace', hchanged.scope_eq]
  | @under frames frames' frame hframes =>
      simp only [Storage.assign] at hassign ⊢
      cases hreplace : frame.replace? name value with
      | none =>
          simp only [hreplace] at hassign
          exact hglobal hassign
      | some changed =>
          simp only [hreplace, Option.some.injEq, Prod.mk.injEq] at hassign
          obtain ⟨rfl, rfl⟩ := hassign
          exact ⟨_, rfl, .mk (.under changed hframes)⟩

theorem declare (hpadded : Padded below outer storage padded)
    (hinside : Inside below outer storage) (name : String) (value : α) :
    Padded below outer (storage.declare name value) (padded.declare name value) := by
  rcases hpadded with ⟨hframes⟩
  cases hframes with
  | current hframe hbelow =>
      exact .mk (.current (hframe.declare (hinside _ _ rfl hbelow)) hbelow)
  | under frame hframes => exact .mk (.under _ hframes)

theorem pushBlock (hpadded : Padded below outer storage padded) :
    Padded below outer storage.pushBlock padded.pushBlock := by
  rcases hpadded with ⟨hframes⟩
  cases hframes with
  | current hframe hbelow => exact .mk (.current (hframe.enter []) hbelow)
  | under frame hframes => exact .mk (.under _ hframes)

/-- Inside a block that was entered there is one more. -/
theorem inside_pushBlock (hpadded : Padded below outer storage padded) :
    Inside below outer storage.pushBlock := by
  rcases hpadded with ⟨hframes⟩
  intro frame rest hcurrent hbelow
  cases hframes with
  | current hframe _ =>
      obtain ⟨rfl, _⟩ := List.cons.inj hcurrent
      exact Nat.lt_succ_of_le hframe.length_le
  | under _ hframes =>
      obtain ⟨_, rfl⟩ := List.cons.inj hcurrent
      exact absurd hbelow (Nat.ne_of_gt hframes.lt_length)

theorem popBlock (hpadded : Padded below outer storage padded)
    (hinside : Inside below outer storage) :
    Padded below outer storage.popBlock padded.popBlock := by
  rcases hpadded with ⟨hframes⟩
  cases hframes with
  | current hframe hbelow =>
      exact .mk (.current (hframe.leave (hinside _ _ rfl hbelow)) hbelow)
  | under frame hframes => exact .mk (.under _ hframes)

/-- To leave the empty block gives the storage without it. -/
theorem popBlock_of_sameFrames {before : Storage α} {frame : Frame α} {rest : List (Frame α)}
    (hpadded : Padded rest.length frame.inner.length storage padded)
    (hframes : before.frames = frame :: rest) (hsame : SameFrames before storage) :
    padded.popBlock = storage := by
  rcases hpadded with ⟨hpadded⟩
  obtain ⟨hscopes, hblocks, htail⟩ := hsame
  rw [hframes] at hblocks htail
  cases hpadded with
  | current hframe _ =>
      have hcount := Nat.succ.inj (List.cons.inj hblocks).1
      simp only [Storage.popBlock, onFrame, hframe.leave_eq hcount]
  | under _ hpadded =>
      obtain rfl : _ = rest := htail
      exact absurd hpadded.lt_length (Nat.lt_irrefl _)

theorem full_iff (hpadded : Padded below outer storage padded) {subprogram : String} :
    padded.Full subprogram ↔ storage.Full subprogram := by
  rcases hpadded with ⟨_⟩
  exact Iff.rfl

theorem pushFrame (hpadded : Padded below outer storage padded) (subprogram : String) :
    Padded below outer (storage.pushFrame subprogram) (padded.pushFrame subprogram) := by
  rcases hpadded with ⟨hframes⟩
  exact .mk (.under _ hframes)

/-- In a new activation the padded frame is not the current one. -/
theorem inside_pushFrame (hpadded : Padded below outer storage padded) (subprogram : String) :
    Inside below outer (storage.pushFrame subprogram) := by
  rcases hpadded with ⟨hframes⟩
  intro frame rest hcurrent hbelow
  obtain ⟨_, rfl⟩ := List.cons.inj hcurrent
  exact absurd hbelow (Nat.ne_of_gt hframes.lt_length)

/-- To leave an activation above the padded frame. -/
theorem popFrame (hpadded : Padded below outer storage padded)
    (hdepth : below + 1 < storage.depth) :
    Padded below outer storage.popFrame padded.popFrame := by
  rcases hpadded with ⟨hframes⟩
  cases hframes with
  | current _ hbelow =>
      rw [depth, List.length_cons] at hdepth
      omega
  | under frame hframes => exact .mk hframes

theorem lt_depth (hpadded : Padded below outer storage padded) : below < storage.depth := by
  rcases hpadded with ⟨hframes⟩
  exact hframes.lt_length

end Padded

end Storage

end ArchSpec
