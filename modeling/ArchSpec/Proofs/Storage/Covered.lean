import Mathlib.Data.List.Forall2
import ArchSpec.Proofs.Storage.Rebinding

/-!
# Storages with more globals

A storage covers another one if it has the same variables in its activations and
at least the same globals, with the same values.  Whatever a name finds in the
smaller storage it finds in the larger one too, and to change both in the same
way keeps them so.  The numbers of activations do not matter.
-/

namespace ArchSpec

variable {α : Type}

namespace Frame

/-- The same variables, in activations that may have different numbers. -/
def SameVariables (frame frame' : Frame α) : Prop := ∃ scope, frame' = { frame with scope }

theorem get?_withScope (frame : Frame α) (scope : Scope) (name : String) :
    ({ frame with scope } : Frame α).get? name = frame.get? name := rfl

theorem declare_withScope (frame : Frame α) (scope : Scope) (name : String) (value : α) :
    ({ frame with scope } : Frame α).declare name value =
      { frame.declare name value with scope } := by
  rcases frame with ⟨own, inner, parameters⟩
  cases inner <;> rfl

theorem replace?_withScope (frame : Frame α) (scope : Scope) (name : String) (new : α) :
    ({ frame with scope } : Frame α).replace? name new =
      (frame.replace? name new).map fun updated => { updated with scope } := by
  rw [replace?, replace?]
  cases Blocks.replace? frame.inner name new with
  | some inner => rfl
  | none =>
      simp only [Option.map_map]
      rfl

end Frame

namespace Storage

/-- What a name finds in the first storage it also finds in the second one,
which may have other globals too. -/
structure Covered (storage storage' : Storage α) : Prop where
  globals : ∀ name value, Named.get? storage.globals name = some value →
    Named.get? storage'.globals name = some value
  frames : List.Forall₂ Frame.SameVariables storage.frames storage'.frames

namespace Covered

variable {storage storage' updated : Storage α} {name other : String} {value new : α}
variable {scope : Scope}

/-- To give a name the same value on both sides keeps what is found. -/
theorem overwritten {find find' : String → Option α}
    (hcovers : ∀ name value, find name = some value → find' name = some value)
    (hfound : (if name = other then some new else find other) = some value) :
    (if name = other then some new else find' other) = some value := by
  by_cases hname : name = other
  · rwa [if_pos hname] at hfound ⊢
  · rw [if_neg hname] at hfound ⊢
    exact hcovers other value hfound

theorem lookupGlobal (hcovered : Covered storage storage')
    (hlookup : storage.lookupGlobal name = some (value, scope)) :
    ∃ scope', storage'.lookupGlobal name = some (value, scope') := by
  rw [Storage.lookupGlobal, Option.map_eq_some_iff] at hlookup
  obtain ⟨found, hfound, hpair⟩ := hlookup
  obtain ⟨rfl, _⟩ := Prod.mk.inj hpair
  refine ⟨storage'.globalScope, ?_⟩
  rw [Storage.lookupGlobal, hcovered.globals name found hfound, Option.map_some]

/-- Either no activation is running, or current ones with the same variables. -/
theorem cases_frames (hcovered : Covered storage storage') :
    storage.frames = [] ∧ storage'.frames = [] ∨
      ∃ frame own rest rest', storage.frames = frame :: rest ∧
        storage'.frames = { frame with scope := own } :: rest' ∧
        List.Forall₂ Frame.SameVariables rest rest' := by
  have hframes := hcovered.frames
  cases hcurrent : storage.frames with
  | nil =>
      rw [hcurrent] at hframes
      exact .inl ⟨rfl, List.forall₂_nil_left_iff.mp hframes⟩
  | cons frame rest =>
      rw [hcurrent] at hframes
      obtain ⟨_, rest', ⟨own, rfl⟩, hrest, hcurrent'⟩ := List.forall₂_cons_left_iff.mp hframes
      exact .inr ⟨frame, own, rest, rest', rfl, hcurrent', hrest⟩

theorem lookup (hcovered : Covered storage storage')
    (hlookup : storage.lookup name = some (value, scope)) :
    ∃ scope', storage'.lookup name = some (value, scope') := by
  rcases hcovered.cases_frames with
    ⟨hframes, hframes'⟩ | ⟨frame, own, rest, rest', hframes, hframes', _⟩
  · simp only [Storage.lookup, hframes] at hlookup
    simp only [Storage.lookup, hframes']
    exact hcovered.lookupGlobal hlookup
  · simp only [Storage.lookup, hframes] at hlookup
    simp only [Storage.lookup, hframes', Frame.get?_withScope]
    cases hget : frame.get? name with
    | some found =>
        simp only [hget, Option.some.injEq, Prod.mk.injEq] at hlookup
        exact ⟨own, by rw [hlookup.1]⟩
    | none =>
        simp only [hget] at hlookup
        exact hcovered.lookupGlobal hlookup

/-- Both storages declare a global. -/
theorem declareGlobal (hcovered : Covered storage storage') (name : String) (value : α) :
    Covered (storage.declareGlobal name value) (storage'.declareGlobal name value) where
  globals other found hfound := by
    change Named.get? (Named.insert storage.globals name value) other = _ at hfound
    change Named.get? (Named.insert storage'.globals name value) other = _
    rw [Named.get?_insert] at hfound ⊢
    exact overwritten hcovered.globals hfound
  frames := hcovered.frames

theorem assignGlobal (hcovered : Covered storage storage')
    (hassign : storage.assignGlobal name new = some (updated, scope)) :
    ∃ updated' scope', storage'.assignGlobal name new = some (updated', scope') ∧
      Covered updated updated' := by
  rw [Storage.assignGlobal, Option.map_eq_some_iff] at hassign
  obtain ⟨globals, hglobals, hpair⟩ := hassign
  obtain ⟨rfl, _⟩ := Prod.mk.inj hpair
  -- The name has a value in the first storage, so it has one in the second.
  obtain ⟨old, hold, _⟩ := Named.rebound_of_replace? hglobals
  have hold' := hcovered.globals name old hold
  cases hglobals' : Named.replace? storage'.globals name new with
  | none =>
      rw [Named.replace?_eq_none_iff.mp hglobals'] at hold'
      cases hold'
  | some globals' =>
      refine ⟨{ storage' with globals := globals' }, storage'.globalScope, ?_, ?_, hcovered.frames⟩
      · rw [Storage.assignGlobal, hglobals', Option.map_some]
      · intro other found hfound
        rw [Named.get?_of_replace? hglobals] at hfound
        rw [Named.get?_of_replace? hglobals']
        exact overwritten hcovered.globals hfound

theorem assign (hcovered : Covered storage storage')
    (hassign : storage.assign name new = some (updated, scope)) :
    ∃ updated' scope', storage'.assign name new = some (updated', scope') ∧
      Covered updated updated' := by
  rcases hcovered.cases_frames with
    ⟨hframes, hframes'⟩ | ⟨frame, own, rest, rest', hframes, hframes', hrest⟩
  · simp only [Storage.assign, hframes] at hassign
    simp only [Storage.assign, hframes']
    exact hcovered.assignGlobal hassign
  · simp only [Storage.assign, hframes] at hassign
    simp only [Storage.assign, hframes', Frame.replace?_withScope]
    cases hreplace : frame.replace? name new with
    | some changed =>
        simp only [hreplace, Option.some.injEq, Prod.mk.injEq] at hassign
        obtain ⟨rfl, _⟩ := hassign
        exact ⟨_, _, rfl, hcovered.globals, .cons ⟨own, rfl⟩ hrest⟩
    | none =>
        simp only [hreplace] at hassign
        exact hcovered.assignGlobal hassign

/-- A change of the current frame that does not look at its number. -/
theorem onFrame (hcovered : Covered storage storage') {change : Frame α → Frame α}
    (hchange : ∀ frame scope,
      change { frame with scope } = { change frame with scope }) :
    Covered (storage.onFrame change) (storage'.onFrame change) := by
  rcases hcovered.cases_frames with
    ⟨hframes, hframes'⟩ | ⟨frame, own, rest, rest', hframes, hframes', hrest⟩
  · simp only [Storage.onFrame, hframes, hframes']
    exact hcovered
  · simp only [Storage.onFrame, hframes, hframes']
    exact ⟨hcovered.globals, .cons ⟨own, hchange frame own⟩ hrest⟩

theorem declare (hcovered : Covered storage storage') (name : String) (value : α) :
    Covered (storage.declare name value) (storage'.declare name value) := by
  rcases hcovered.cases_frames with
    ⟨hframes, hframes'⟩ | ⟨frame, own, rest, rest', hframes, hframes', hrest⟩
  · simp only [Storage.declare, hframes, hframes']
    exact hcovered.declareGlobal name value
  · simp only [Storage.declare, hframes, hframes', Frame.declare_withScope]
    exact ⟨hcovered.globals, .cons ⟨own, rfl⟩ hrest⟩

theorem pushBlock (hcovered : Covered storage storage') :
    Covered storage.pushBlock storage'.pushBlock :=
  hcovered.onFrame fun _ _ => rfl

theorem popBlock (hcovered : Covered storage storage') :
    Covered storage.popBlock storage'.popBlock :=
  hcovered.onFrame fun _ _ => rfl

theorem pushFrame (hcovered : Covered storage storage') (subprogram : String) :
    Covered (storage.pushFrame subprogram) (storage'.pushFrame subprogram) :=
  ⟨hcovered.globals, .cons ⟨_, rfl⟩ hcovered.frames⟩

theorem popFrame (hcovered : Covered storage storage') :
    Covered storage.popFrame storage'.popFrame := by
  rcases hcovered.cases_frames with
    ⟨hframes, hframes'⟩ | ⟨frame, own, rest, rest', hframes, hframes', hrest⟩
  · simp only [Storage.popFrame, hframes, hframes']
    exact ⟨hcovered.globals, .nil⟩
  · simp only [Storage.popFrame, hframes, hframes']
    exact ⟨hcovered.globals, hrest⟩

end Covered

end Storage

end ArchSpec
