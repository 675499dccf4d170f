import ArchSpec.Eval.Storage

/-!
# What all variables satisfy

A predicate on values, taken over all entries of a list, over all blocks of a
frame, and over the globals and all frames.  Looking up yields a value that
satisfies it, and binding or overwriting one that does keeps it.
-/

namespace ArchSpec

variable {α : Type} {P : α → Prop} {name : String} {value new : α}

namespace Named

variable {entries updated : Named α}

/-- Every entry satisfies a predicate, under whatever name. -/
def Each (P : α → Prop) (entries : Named α) : Prop := ∀ entry ∈ entries, P entry.2

theorem Each.nil : Each P ([] : Named α) := fun _ hmem => nomatch hmem

theorem each_cons {entry : String × α} :
    Each P (entry :: entries) ↔ P entry.2 ∧ Each P entries :=
  List.forall_mem_cons

theorem Each.get? (heach : Each P entries) (hget : get? entries name = some value) : P value := by
  induction entries with
  | nil => nomatch hget
  | cons entry rest ih =>
      obtain ⟨hfirst, hrest⟩ := each_cons.mp heach
      rw [Named.get?] at hget
      split at hget
      · cases hget
        exact hfirst
      · exact ih hrest hget

theorem Each.insert (heach : Each P entries) (name : String) (hnew : P new) :
    Each P (insert entries name new) := by
  induction entries with
  | nil => exact each_cons.mpr ⟨hnew, .nil⟩
  | cons entry rest ih =>
      obtain ⟨hfirst, hrest⟩ := each_cons.mp heach
      rw [Named.insert]
      split
      · exact each_cons.mpr ⟨hnew, hrest⟩
      · exact each_cons.mpr ⟨hfirst, ih hrest⟩

theorem Each.replace? (heach : Each P entries) (hnew : P new)
    (hreplace : replace? entries name new = some updated) : Each P updated := by
  induction entries generalizing updated with
  | nil => nomatch hreplace
  | cons entry rest ih =>
      obtain ⟨hfirst, hrest⟩ := each_cons.mp heach
      rw [Named.replace?] at hreplace
      split at hreplace
      · cases hreplace
        exact each_cons.mpr ⟨hnew, hrest⟩
      · obtain ⟨tail, htail, rfl⟩ := Option.map_eq_some_iff.mp hreplace
        exact each_cons.mpr ⟨hfirst, ih hrest htail⟩

end Named

namespace Blocks

variable {blocks updated : List (Named α)}

def Each (P : α → Prop) (blocks : List (Named α)) : Prop := ∀ block ∈ blocks, Named.Each P block

theorem Each.nil : Each P ([] : List (Named α)) := fun _ hmem => nomatch hmem

theorem Each.get? (heach : Each P blocks) (hget : get? blocks name = some value) : P value := by
  induction blocks with
  | nil => nomatch hget
  | cons block rest ih =>
      obtain ⟨hfirst, hrest⟩ := List.forall_mem_cons.mp heach
      rw [Blocks.get?] at hget
      split at hget
      · rename_i hfound
        cases hget
        exact hfirst.get? hfound
      · exact ih hrest hget

theorem Each.replace? (heach : Each P blocks) (hnew : P new)
    (hreplace : replace? blocks name new = some updated) : Each P updated := by
  induction blocks generalizing updated with
  | nil => nomatch hreplace
  | cons block rest ih =>
      obtain ⟨hfirst, hrest⟩ := List.forall_mem_cons.mp heach
      rw [Blocks.replace?] at hreplace
      split at hreplace
      · rename_i hfound
        cases hreplace
        exact List.forall_mem_cons.mpr ⟨hfirst.replace? hnew hfound, hrest⟩
      · obtain ⟨tail, htail, rfl⟩ := Option.map_eq_some_iff.mp hreplace
        exact List.forall_mem_cons.mpr ⟨hfirst, ih hrest htail⟩

end Blocks

namespace Frame

variable {frame updated : Frame α}

/-- Every variable of an activation satisfies a predicate. -/
structure Each (P : α → Prop) (frame : Frame α) : Prop where
  inner : Blocks.Each P frame.inner
  parameters : Named.Each P frame.parameters

theorem Each.get? (heach : frame.Each P) (hget : frame.get? name = some value) : P value := by
  rw [Frame.get?] at hget
  split at hget
  · rename_i hfound
    cases hget
    exact heach.inner.get? hfound
  · exact heach.parameters.get? hget

theorem Each.replace? (heach : frame.Each P) (hnew : P new)
    (hreplace : frame.replace? name new = some updated) : updated.Each P := by
  rw [Frame.replace?] at hreplace
  split at hreplace
  · rename_i hfound
    cases hreplace
    exact ⟨heach.inner.replace? hnew hfound, heach.parameters⟩
  · obtain ⟨parameters, hparameters, rfl⟩ := Option.map_eq_some_iff.mp hreplace
    exact ⟨heach.inner, heach.parameters.replace? hnew hparameters⟩

theorem Each.declare (heach : frame.Each P) (name : String) (hvalue : P value) :
    (frame.declare name value).Each P := by
  rw [Frame.declare]
  split
  · rename_i block rest hinner
    have hblocks := heach.inner
    rw [hinner] at hblocks
    obtain ⟨hblock, hrest⟩ := List.forall_mem_cons.mp hblocks
    exact ⟨List.forall_mem_cons.mpr ⟨hblock.insert name hvalue, hrest⟩, heach.parameters⟩
  · rename_i hinner
    refine ⟨?_, heach.parameters.insert name hvalue⟩
    exact hinner ▸ heach.inner

end Frame

namespace Storage

variable {storage updated : Storage α} {scope : Scope}

/-- Every variable satisfies a predicate. -/
structure Each (P : α → Prop) (storage : Storage α) : Prop where
  globals : Named.Each P storage.globals
  frames : ∀ frame ∈ storage.frames, frame.Each P

namespace Each

theorem empty : (empty : Storage α).Each P := ⟨.nil, fun _ hmem => nomatch hmem⟩

theorem lookupGlobal (heach : storage.Each P)
    (hlookup : storage.lookupGlobal name = some (value, scope)) : P value := by
  obtain ⟨found, hfound, hsame⟩ := Option.map_eq_some_iff.mp hlookup
  cases hsame
  exact heach.globals.get? hfound

theorem lookup (heach : storage.Each P) (hlookup : storage.lookup name = some (value, scope)) :
    P value := by
  rw [Storage.lookup] at hlookup
  split at hlookup
  · rename_i frame rest hframes
    split at hlookup
    · rename_i hfound
      cases hlookup
      exact (heach.frames frame (by simp [hframes])).get? hfound
    · exact heach.lookupGlobal hlookup
  · exact heach.lookupGlobal hlookup

theorem assignGlobal (heach : storage.Each P) (hnew : P new)
    (hassign : storage.assignGlobal name new = some (updated, scope)) : updated.Each P := by
  obtain ⟨globals, hglobals, hsame⟩ := Option.map_eq_some_iff.mp hassign
  cases hsame
  exact ⟨heach.globals.replace? hnew hglobals, heach.frames⟩

theorem assign (heach : storage.Each P) (hnew : P new)
    (hassign : storage.assign name new = some (updated, scope)) : updated.Each P := by
  rw [Storage.assign] at hassign
  split at hassign
  · rename_i frame rest hframes
    have hall := heach.frames
    rw [hframes] at hall
    obtain ⟨hframe, hrest⟩ := List.forall_mem_cons.mp hall
    split at hassign
    · rename_i hreplace
      cases hassign
      exact ⟨heach.globals, List.forall_mem_cons.mpr ⟨hframe.replace? hnew hreplace, hrest⟩⟩
    · exact heach.assignGlobal hnew hassign
  · exact heach.assignGlobal hnew hassign

theorem declareGlobal (heach : storage.Each P) (name : String) (hvalue : P value) :
    (storage.declareGlobal name value).Each P :=
  ⟨heach.globals.insert name hvalue, heach.frames⟩

/-- What keeps the current frame as asked keeps the storage so. -/
theorem onFrame (heach : storage.Each P) {change : Frame α → Frame α}
    (hchange : ∀ frame : Frame α, frame.Each P → (change frame).Each P) :
    (storage.onFrame change).Each P := by
  rw [Storage.onFrame]
  split
  · rename_i frame rest hframes
    have hall := heach.frames
    rw [hframes] at hall
    obtain ⟨hframe, hrest⟩ := List.forall_mem_cons.mp hall
    exact ⟨heach.globals, List.forall_mem_cons.mpr ⟨hchange frame hframe, hrest⟩⟩
  · exact heach

theorem declare (heach : storage.Each P) (name : String) (hvalue : P value) :
    (storage.declare name value).Each P := by
  rw [Storage.declare]
  split
  · rename_i frame rest hframes
    have hall := heach.frames
    rw [hframes] at hall
    obtain ⟨hframe, hrest⟩ := List.forall_mem_cons.mp hall
    exact ⟨heach.globals, List.forall_mem_cons.mpr ⟨hframe.declare name hvalue, hrest⟩⟩
  · exact heach.declareGlobal name hvalue

theorem pushFrame (heach : storage.Each P) (subprogram : String) :
    (storage.pushFrame subprogram).Each P :=
  ⟨heach.globals, List.forall_mem_cons.mpr ⟨⟨.nil, .nil⟩, heach.frames⟩⟩

theorem popFrame (heach : storage.Each P) : storage.popFrame.Each P :=
  ⟨heach.globals, fun frame hframe => heach.frames frame (List.mem_of_mem_tail hframe)⟩

theorem pushBlock (heach : storage.Each P) : storage.pushBlock.Each P :=
  heach.onFrame fun _ hframe => ⟨List.forall_mem_cons.mpr ⟨.nil, hframe.inner⟩, hframe.parameters⟩

theorem popBlock (heach : storage.Each P) : storage.popBlock.Each P :=
  heach.onFrame fun _ hframe =>
    ⟨fun block hblock => hframe.inner block (List.mem_of_mem_tail hblock), hframe.parameters⟩

end Each

end Storage

end ArchSpec
