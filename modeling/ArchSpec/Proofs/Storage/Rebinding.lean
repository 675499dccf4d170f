import ArchSpec.Eval.Storage

/-!
# Assigning to a variable

To assign overwrites one entry of one list: the one that a lookup finds.  The
entry keeps its place, and all other entries of all blocks, frames and globals
are as before.
-/

namespace ArchSpec

variable {α : Type} {name other : String} {old new value : α} {scope : Scope}

namespace Named

/-- The first entry under a name has another value, and nothing else differs. -/
def Rebound (name : String) (old new : α) (before after : Named α) : Prop :=
  ∃ left right, before = left ++ (name, old) :: right ∧ after = left ++ (name, new) :: right ∧
    name ∉ names left

variable {entries updated : Named α}

theorem rebound_of_replace? (hreplace : replace? entries name new = some updated) :
    ∃ old, get? entries name = some old ∧ Rebound name old new entries updated := by
  induction entries generalizing updated with
  | nil => simp [replace?] at hreplace
  | cons entry rest ih =>
      obtain ⟨first, value⟩ := entry
      by_cases hfirst : first = name
      · subst hfirst
        simp only [replace?, if_true, Option.some.injEq] at hreplace
        subst hreplace
        exact ⟨value, by simp [get?], [], rest, rfl, rfl, by simp [names]⟩
      · simp only [replace?, if_neg hfirst, Option.map_eq_some_iff] at hreplace
        obtain ⟨tail, htail, rfl⟩ := hreplace
        obtain ⟨old, hold, left, right, rfl, rfl, hleft⟩ := ih htail
        refine ⟨old, by simpa [get?, hfirst] using hold, (first, value) :: left, right, rfl, rfl,
          ?_⟩
        simp only [names, List.map_cons, List.mem_cons, not_or]
        exact ⟨Ne.symm hfirst, hleft⟩

end Named

namespace Blocks

/-- In the first block that has a name, its value is another one, and nothing
else differs. -/
def Rebound (name : String) (old new : α) (before after : List (Named α)) : Prop :=
  ∃ upper lower block changed, before = upper ++ block :: lower ∧
    after = upper ++ changed :: lower ∧ (∀ above ∈ upper, Named.get? above name = none) ∧
    Named.Rebound name old new block changed

variable {blocks updated : List (Named α)}

theorem replace?_eq_none_iff : replace? blocks name new = none ↔ get? blocks name = none := by
  induction blocks with
  | nil => simp [replace?, get?]
  | cons block rest ih =>
      rw [replace?, get?]
      cases hblock : Named.get? block name with
      | none => simp [Named.replace?_eq_none_iff.mpr hblock, ih]
      | some value =>
          cases hreplace : Named.replace? block name new with
          | none => simp [Named.replace?_eq_none_iff.mp hreplace] at hblock
          | some changed => simp

theorem rebound_of_replace? (hreplace : replace? blocks name new = some updated) :
    ∃ old, get? blocks name = some old ∧ Rebound name old new blocks updated := by
  induction blocks generalizing updated with
  | nil => simp [replace?] at hreplace
  | cons block rest ih =>
      rw [replace?] at hreplace
      cases hblock : Named.replace? block name new with
      | some changed =>
          simp only [hblock, Option.some.injEq] at hreplace
          subst hreplace
          obtain ⟨old, hold, hrebound⟩ := Named.rebound_of_replace? hblock
          have hupper : ∀ above ∈ ([] : List (Named α)), Named.get? above name = none := by simp
          exact ⟨old, by simp [get?, hold], [], rest, block, changed, rfl, rfl, hupper, hrebound⟩
      | none =>
          simp only [hblock, Option.map_eq_some_iff] at hreplace
          obtain ⟨tail, htail, rfl⟩ := hreplace
          have habsent : Named.get? block name = none := Named.replace?_eq_none_iff.mp hblock
          obtain ⟨old, hold, upper, lower, found, changed, rfl, rfl, hupper, hrebound⟩ := ih htail
          exact ⟨old, by simp [get?, habsent, hold], block :: upper, lower, found, changed, rfl,
            rfl, List.forall_mem_cons.mpr ⟨habsent, hupper⟩, hrebound⟩

theorem get?_of_replace? (hreplace : replace? blocks name new = some updated) :
    get? updated other = if name = other then some new else get? blocks other := by
  induction blocks generalizing updated with
  | nil => simp [replace?] at hreplace
  | cons block rest ih =>
      rw [replace?] at hreplace
      cases hblock : Named.replace? block name new with
      | some changed =>
          simp only [hblock, Option.some.injEq] at hreplace
          subst hreplace
          rw [get?, get?, Named.get?_of_replace? hblock]
          by_cases hother : name = other <;> simp [hother]
      | none =>
          simp only [hblock, Option.map_eq_some_iff] at hreplace
          obtain ⟨tail, htail, rfl⟩ := hreplace
          have habsent : Named.get? block name = none := Named.replace?_eq_none_iff.mp hblock
          rw [get?, get?, ih htail]
          by_cases hother : name = other
          · subst hother
            simp [habsent]
          · simp [hother]

end Blocks

namespace Frame

/-- The value of a name in a frame is another one, and nothing else differs. -/
inductive Rebound (name : String) (old new : α) (frame : Frame α) : Frame α → Prop where
  | inner {inner : List (Named α)} (hrebound : Blocks.Rebound name old new frame.inner inner) :
      Rebound name old new frame { frame with inner }
  | parameter {parameters : Named α} (hinner : Blocks.get? frame.inner name = none)
      (hrebound : Named.Rebound name old new frame.parameters parameters) :
      Rebound name old new frame { frame with parameters }

variable {frame updated : Frame α}

theorem Rebound.scope_eq (hrebound : Rebound name old new frame updated) :
    updated.scope = frame.scope := by
  cases hrebound <;> rfl

theorem replace?_eq_none_iff : frame.replace? name new = none ↔ frame.get? name = none := by
  rw [replace?, get?]
  cases hinner : Blocks.get? frame.inner name with
  | none =>
      simp [Blocks.replace?_eq_none_iff.mpr hinner, Named.replace?_eq_none_iff]
  | some value =>
      cases hreplace : Blocks.replace? frame.inner name new with
      | none => simp [Blocks.replace?_eq_none_iff.mp hreplace] at hinner
      | some inner => simp

theorem rebound_of_replace? (hreplace : frame.replace? name new = some updated) :
    ∃ old, frame.get? name = some old ∧ Rebound name old new frame updated := by
  rw [replace?] at hreplace
  cases hinner : Blocks.replace? frame.inner name new with
  | some inner =>
      simp only [hinner, Option.some.injEq] at hreplace
      subst hreplace
      obtain ⟨old, hold, hrebound⟩ := Blocks.rebound_of_replace? hinner
      exact ⟨old, by simp [get?, hold], .inner hrebound⟩
  | none =>
      simp only [hinner, Option.map_eq_some_iff] at hreplace
      obtain ⟨parameters, hparameters, rfl⟩ := hreplace
      have habsent : Blocks.get? frame.inner name = none := Blocks.replace?_eq_none_iff.mp hinner
      obtain ⟨old, hold, hrebound⟩ := Named.rebound_of_replace? hparameters
      exact ⟨old, by simp [get?, habsent, hold], .parameter habsent hrebound⟩

theorem get?_of_replace? (hreplace : frame.replace? name new = some updated) :
    updated.get? other = if name = other then some new else frame.get? other := by
  rw [replace?] at hreplace
  cases hinner : Blocks.replace? frame.inner name new with
  | some inner =>
      simp only [hinner, Option.some.injEq] at hreplace
      subst hreplace
      rw [get?, get?, Blocks.get?_of_replace? hinner]
      by_cases hother : name = other <;> simp [hother]
  | none =>
      simp only [hinner, Option.map_eq_some_iff] at hreplace
      obtain ⟨parameters, hparameters, rfl⟩ := hreplace
      have habsent : Blocks.get? frame.inner name = none := Blocks.replace?_eq_none_iff.mp hinner
      rw [get?, get?, Named.get?_of_replace? hparameters]
      by_cases hother : name = other
      · subst hother
        simp [habsent]
      · simp [hother]

end Frame

namespace Storage

/-- The value of a name is another one where the name is found, in the current
frame or else among the globals, and nothing else differs. -/
inductive Rebound (name : String) (old new : α) (storage : Storage α) :
    Storage α → Scope → Prop where
  | inFrame {frame changed : Frame α} {rest : List (Frame α)}
      (hframes : storage.frames = frame :: rest)
      (hrebound : Frame.Rebound name old new frame changed) :
      Rebound name old new storage { storage with frames := changed :: rest } frame.scope
  | amongGlobals {globals : Named α}
      (hframe : ∀ frame ∈ storage.frames.head?, frame.get? name = none)
      (hrebound : Named.Rebound name old new storage.globals globals) :
      Rebound name old new storage { storage with globals } storage.globalScope

variable {storage updated : Storage α}

theorem rebound_of_assignGlobal (hframe : ∀ frame ∈ storage.frames.head?, frame.get? name = none)
    (hassign : storage.assignGlobal name new = some (updated, scope)) :
    ∃ old, storage.lookupGlobal name = some (old, scope) ∧
      Rebound name old new storage updated scope := by
  rw [assignGlobal, Option.map_eq_some_iff] at hassign
  obtain ⟨globals, hglobals, hresult⟩ := hassign
  obtain ⟨rfl, rfl⟩ := Prod.mk.inj hresult
  obtain ⟨old, hold, hrebound⟩ := Named.rebound_of_replace? hglobals
  exact ⟨old, by simp [lookupGlobal, hold], .amongGlobals hframe hrebound⟩

/-- To assign changes what a lookup finds, in the scope where it is found, and
nothing else. -/
theorem rebound_of_assign (hassign : storage.assign name new = some (updated, scope)) :
    ∃ old, storage.lookup name = some (old, scope) ∧
      Rebound name old new storage updated scope := by
  rw [assign] at hassign
  rw [lookup]
  cases hframes : storage.frames with
  | nil =>
      rw [hframes] at hassign
      exact rebound_of_assignGlobal (by simp [hframes]) hassign
  | cons frame rest =>
      simp only [hframes] at hassign ⊢
      cases hframe : frame.replace? name new with
      | some changed =>
          simp only [hframe, Option.some.injEq, Prod.mk.injEq] at hassign
          obtain ⟨rfl, rfl⟩ := hassign
          obtain ⟨old, hold, hrebound⟩ := Frame.rebound_of_replace? hframe
          rw [hrebound.scope_eq]
          exact ⟨old, by simp [hold], .inFrame hframes hrebound⟩
      | none =>
          rw [hframe] at hassign
          have habsent : frame.get? name = none := Frame.replace?_eq_none_iff.mp hframe
          simp only [habsent]
          exact rebound_of_assignGlobal (by simp [hframes, habsent]) hassign

/-- What can be found can be assigned. -/
theorem assign_eq_none_iff : storage.assign name new = none ↔ storage.lookup name = none := by
  have hglobal : storage.assignGlobal name new = none ↔ storage.lookupGlobal name = none := by
    rw [assignGlobal, lookupGlobal, Option.map_eq_none_iff, Option.map_eq_none_iff]
    exact Named.replace?_eq_none_iff
  rw [assign, lookup]
  cases storage.frames with
  | nil => exact hglobal
  | cons frame rest =>
      simp only
      cases hframe : frame.get? name with
      | none => rw [Frame.replace?_eq_none_iff.mpr hframe]; exact hglobal
      | some value =>
          cases hreplace : frame.replace? name new with
          | none => simp [Frame.replace?_eq_none_iff.mp hreplace] at hframe
          | some changed => simp

theorem lookupGlobal_of_assignGlobal
    (hassign : storage.assignGlobal name new = some (updated, scope)) :
    updated.lookupGlobal other =
      if name = other then some (new, scope) else storage.lookupGlobal other := by
  rw [assignGlobal, Option.map_eq_some_iff] at hassign
  obtain ⟨globals, hglobals, hresult⟩ := hassign
  obtain ⟨rfl, rfl⟩ := Prod.mk.inj hresult
  simp only [lookupGlobal, Named.get?_of_replace? hglobals]
  by_cases hother : name = other <;> simp [hother, globalScope]

theorem frames_of_assignGlobal (hassign : storage.assignGlobal name new = some (updated, scope)) :
    updated.frames = storage.frames := by
  rw [assignGlobal, Option.map_eq_some_iff] at hassign
  obtain ⟨globals, _, hresult⟩ := hassign
  obtain ⟨rfl, rfl⟩ := Prod.mk.inj hresult
  rfl

/-- Afterwards the name has the new value, and all other names are found as
before. -/
theorem lookup_of_assign (hassign : storage.assign name new = some (updated, scope)) :
    updated.lookup other = if name = other then some (new, scope) else storage.lookup other := by
  rw [assign] at hassign
  cases hframes : storage.frames with
  | nil =>
      rw [hframes] at hassign
      rw [lookup, lookup, frames_of_assignGlobal hassign, hframes]
      exact lookupGlobal_of_assignGlobal hassign
  | cons frame rest =>
      simp only [hframes] at hassign
      cases hframe : frame.replace? name new with
      | some changed =>
          simp only [hframe, Option.some.injEq, Prod.mk.injEq] at hassign
          obtain ⟨rfl, rfl⟩ := hassign
          obtain ⟨_, _, hrebound⟩ := Frame.rebound_of_replace? hframe
          simp only [lookup, hframes, Frame.get?_of_replace? hframe, hrebound.scope_eq]
          by_cases hother : name = other <;> simp [hother, lookupGlobal, globalScope]
      | none =>
          rw [hframe] at hassign
          have habsent : frame.get? name = none := Frame.replace?_eq_none_iff.mp hframe
          rw [lookup, lookup, frames_of_assignGlobal hassign, hframes]
          simp only [lookupGlobal_of_assignGlobal hassign]
          by_cases hother : name = other
          · subst hother
            simp [habsent]
          · simp [hother]

end Storage

end ArchSpec
