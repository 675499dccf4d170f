import ArchSpec.Eval.Storage

/-!
# Frames that keep their shape

Variables come and go inside a frame while the frame itself stays.  Two
storages have the same frames if the same activations are running, each inside
as many blocks, and nothing differs below the current one.  Reading, writing
and declaring variables keep the frames, and what a block or an activation adds
is taken away when it is left.
-/

namespace ArchSpec

variable {α : Type}

namespace Blocks

theorem length_of_replace? {blocks updated : List (Named α)} {name : String} {new : α}
    (hreplace : replace? blocks name new = some updated) : updated.length = blocks.length := by
  induction blocks generalizing updated with
  | nil => simp [replace?] at hreplace
  | cons block rest ih =>
      rw [replace?] at hreplace
      cases hblock : Named.replace? block name new with
      | some changed =>
          simp only [hblock, Option.some.injEq] at hreplace
          rw [← hreplace, List.length_cons, List.length_cons]
      | none =>
          simp only [hblock, Option.map_eq_some_iff] at hreplace
          obtain ⟨tail, htail, rfl⟩ := hreplace
          rw [List.length_cons, List.length_cons, ih htail]

end Blocks

namespace Frame

/-- The number of blocks of a frame, the parameter block included. -/
def blockCount (frame : Frame α) : Nat := frame.inner.length + 1

theorem shape_of_replace? {frame updated : Frame α} {name : String} {new : α}
    (hreplace : frame.replace? name new = some updated) :
    updated.scope = frame.scope ∧ updated.blockCount = frame.blockCount := by
  rw [replace?] at hreplace
  cases hinner : Blocks.replace? frame.inner name new with
  | some inner =>
      simp only [hinner, Option.some.injEq] at hreplace
      subst hreplace
      exact ⟨rfl, congrArg (· + 1) (Blocks.length_of_replace? hinner)⟩
  | none =>
      simp only [hinner, Option.map_eq_some_iff] at hreplace
      obtain ⟨parameters, _, rfl⟩ := hreplace
      exact ⟨rfl, rfl⟩

theorem shape_declare (frame : Frame α) (name : String) (value : α) :
    (frame.declare name value).scope = frame.scope ∧
      (frame.declare name value).blockCount = frame.blockCount := by
  rcases frame with ⟨scope, inner, parameters⟩
  cases inner <;> exact ⟨rfl, rfl⟩

end Frame

namespace Storage

/-- Variables apart, both storages have the same frames. -/
structure SameFrames (before after : Storage α) : Prop where
  /-- The same activations are running. -/
  scopes : after.frames.map Frame.scope = before.frames.map Frame.scope
  /-- Each activation is inside as many blocks. -/
  blocks : after.frames.map Frame.blockCount = before.frames.map Frame.blockCount
  /-- The activations below the current one have the same variables too. -/
  below : after.frames.tail = before.frames.tail

namespace SameFrames

variable {before between after : Storage α}

theorem of_frames_eq (hframes : after.frames = before.frames) : SameFrames before after := by
  constructor <;> rw [hframes]

theorem refl (storage : Storage α) : SameFrames storage storage := .of_frames_eq rfl

theorem trans (hfirst : SameFrames before between) (hsecond : SameFrames between after) :
    SameFrames before after where
  scopes := hsecond.scopes.trans hfirst.scopes
  blocks := hsecond.blocks.trans hfirst.blocks
  below := hsecond.below.trans hfirst.below

theorem depth_eq (hsame : SameFrames before after) : after.depth = before.depth := by
  have hlength := congrArg List.length hsame.scopes
  rwa [List.length_map, List.length_map] at hlength

/-- A change of the current frame that keeps its scope and its blocks. -/
theorem of_current {frame changed : Frame α} {rest : List (Frame α)}
    (hbefore : before.frames = frame :: rest) (hafter : after.frames = changed :: rest)
    (hshape : changed.scope = frame.scope ∧ changed.blockCount = frame.blockCount) :
    SameFrames before after := by
  constructor <;> rw [hbefore, hafter]
  · rw [List.map_cons, List.map_cons, hshape.1]
  · rw [List.map_cons, List.map_cons, hshape.2]
  · rfl

end SameFrames

@[simp]
theorem initialising_onFrame (storage : Storage α) (change : Frame α → Frame α) :
    (storage.onFrame change).initialising = storage.initialising := by
  rw [onFrame]
  split <;> rfl

@[simp]
theorem depth_onFrame (storage : Storage α) (change : Frame α → Frame α) :
    (storage.onFrame change).depth = storage.depth := by
  rw [onFrame, depth, depth]
  cases hframes : storage.frames with
  | nil => exact congrArg List.length hframes
  | cons frame rest => rw [List.length_cons, List.length_cons]

theorem initialising_declare (storage : Storage α) (name : String) (value : α) :
    (storage.declare name value).initialising = storage.initialising := by
  rw [declare]
  split <;> rfl

theorem initialising_of_assign {storage updated : Storage α} {name : String} {value : α}
    {scope : Scope} (hassign : storage.assign name value = some (updated, scope)) :
    updated.initialising = storage.initialising := by
  have hglobal : ∀ result, storage.assignGlobal name value = some result →
      result.1.initialising = storage.initialising := by
    intro result hresult
    rw [assignGlobal, Option.map_eq_some_iff] at hresult
    obtain ⟨globals, _, rfl⟩ := hresult
    rfl
  rw [assign] at hassign
  split at hassign
  · split at hassign
    · simp only [Option.some.injEq, Prod.mk.injEq] at hassign
      rw [← hassign.1]
    · exact hglobal _ hassign
  · exact hglobal _ hassign

theorem sameFrames_declare (storage : Storage α) (name : String) (value : α) :
    SameFrames storage (storage.declare name value) := by
  rw [declare]
  cases hframes : storage.frames with
  | nil => exact .of_frames_eq rfl
  | cons frame rest => exact .of_current hframes rfl (frame.shape_declare name value)

theorem sameFrames_of_assign {storage updated : Storage α} {name : String} {value : α}
    {scope : Scope} (hassign : storage.assign name value = some (updated, scope)) :
    SameFrames storage updated := by
  have hglobal : ∀ result, storage.assignGlobal name value = some result →
      SameFrames storage result.1 := by
    intro result hresult
    rw [assignGlobal, Option.map_eq_some_iff] at hresult
    obtain ⟨globals, _, rfl⟩ := hresult
    exact .of_frames_eq rfl
  rw [assign] at hassign
  cases hframes : storage.frames with
  | nil =>
      rw [hframes] at hassign
      exact hglobal _ hassign
  | cons frame rest =>
      simp only [hframes] at hassign
      cases hframe : frame.replace? name value with
      | some changed =>
          simp only [hframe, Option.some.injEq, Prod.mk.injEq] at hassign
          obtain ⟨rfl, _⟩ := hassign
          exact .of_current hframes rfl (Frame.shape_of_replace? hframe)
      | none =>
          rw [hframe] at hassign
          exact hglobal _ hassign

/-- Leaving a block takes away what entering it has added. -/
theorem sameFrames_popBlock {storage after : Storage α}
    (hbody : SameFrames storage.pushBlock after) : SameFrames storage after.popBlock := by
  rcases storage with ⟨globals, frames, activations, initialising⟩
  rcases after with ⟨globals', frames', activations', initialising'⟩
  obtain ⟨hscopes, hblocks, hbelow⟩ := hbody
  cases frames with
  | nil =>
      have hnil : frames' = [] := List.map_eq_nil_iff.mp hscopes
      subst hnil
      exact .of_frames_eq rfl
  | cons frame rest =>
      cases frames' with
      | nil => simp [pushBlock, onFrame] at hscopes
      | cons frame' rest' =>
          simp only [pushBlock, onFrame, List.map_cons, List.cons.injEq, List.tail_cons,
            Frame.blockCount, List.length_cons] at hscopes hblocks hbelow
          subst hbelow
          refine .of_current rfl rfl ⟨hscopes.1, ?_⟩
          simp only [Frame.blockCount, List.length_tail]
          omega

/-- Leaving an activation restores all frames with their variables. -/
theorem frames_popFrame {storage after : Storage α} {subprogram : String}
    (hbody : SameFrames (storage.pushFrame subprogram) after) :
    after.popFrame.frames = storage.frames := by
  exact hbody.below

end Storage

end ArchSpec
