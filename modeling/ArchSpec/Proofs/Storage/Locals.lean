import ArchSpec.Proofs.Storage.Rebinding
import Mathlib.Data.List.Forall2

/-!
# Locals

The variables of an activation live in a stack of blocks, with the parameters in
the last one.  A block is kept if it binds the same names as before and only names
that may be assigned have other values.  To declare a variable is the one way to
change which names a block binds, and it changes the innermost block only, so a
block that was entered and is left again leaves nothing behind.
-/

namespace ArchSpec

variable {α : Type} {name : String} {value : α} {assigned : List String}

namespace Named

variable {entries updated : Named α}

theorem names_cons (entry : String × α) (rest : Named α) :
    names (entry :: rest) = entry.1 :: names rest := rfl

theorem names_insert (entries : Named α) (name : String) (new : α) :
    names (insert entries name new) =
      if name ∈ names entries then names entries else names entries ++ [name] := by
  induction entries with
  | nil => simp [names, insert]
  | cons entry rest ih =>
      obtain ⟨first, value⟩ := entry
      rw [insert, names_cons]
      by_cases hfirst : first = name
      · rw [if_pos hfirst, names_cons, if_pos (hfirst ▸ List.mem_cons_self ..)]
      · have hmem : name ∈ first :: names rest ↔ name ∈ names rest := by
          simp [Ne.symm hfirst]
        rw [if_neg hfirst, names_cons, ih, if_congr hmem rfl rfl]
        split <;> rfl

/-- The same names are bound, and only those that may be assigned have other
values. -/
structure Kept (assigned : List String) (before after : Named α) : Prop where
  names : names after = names before
  values : ∀ name ∉ assigned, get? after name = get? before name

namespace Kept

variable (α) in
theorem equivalence (assigned : List String) :
    Equivalence (fun before after : Named α => Kept assigned before after) where
  refl _ := ⟨rfl, fun _ _ => rfl⟩
  symm hkept := ⟨hkept.names.symm, fun name hname => (hkept.values name hname).symm⟩
  trans hfirst hsecond := ⟨hsecond.names.trans hfirst.names, fun name hname =>
    (hsecond.values name hname).trans (hfirst.values name hname)⟩

theorem of_replace? (hname : name ∈ assigned)
    (hreplace : replace? entries name value = some updated) : Kept assigned entries updated where
  names := names_of_replace? hreplace
  values other hother := by
    rw [get?_of_replace? hreplace, if_neg]
    rintro rfl
    exact hother hname

/-- A declaration keeps a block if it finds the name bound, to the same value unless
it may be assigned. -/
theorem insert_iff : Kept assigned entries (insert entries name value) ↔
    name ∈ Named.names entries ∧ (name ∈ assigned ∨ get? entries name = some value) := by
  constructor
  · intro hkept
    have hmem : name ∈ Named.names entries := by
      by_contra hnew
      have hnames := hkept.names
      rw [names_insert, if_neg hnew] at hnames
      simpa using congrArg List.length hnames
    refine ⟨hmem, ?_⟩
    by_cases hname : name ∈ assigned
    · exact .inl hname
    · have hvalue := hkept.values name hname
      rw [get?_insert, if_pos rfl] at hvalue
      exact .inr hvalue.symm
  · rintro ⟨hmem, hvalue⟩
    constructor
    · rw [names_insert, if_pos hmem]
    · intro other hother
      rw [get?_insert]
      by_cases hsame : name = other
      · subst hsame
        rw [if_pos rfl, hvalue.resolve_left hother]
      · rw [if_neg hsame]

end Kept

end Named

theorem Blocks.kept_of_replace? {blocks updated : List (Named α)} (hname : name ∈ assigned)
    (hreplace : replace? blocks name value = some updated) :
    List.Forall₂ (Named.Kept assigned) blocks updated := by
  induction blocks generalizing updated with
  | nil => nomatch hreplace
  | cons block rest ih =>
      rw [replace?] at hreplace
      cases hblock : Named.replace? block name value with
      | some changed =>
          simp only [hblock, Option.some.injEq] at hreplace
          subst hreplace
          exact .cons (.of_replace? hname hblock)
            (List.forall₂_same.mpr fun other _ => (Named.Kept.equivalence α assigned).refl other)
      | none =>
          simp only [hblock, Option.map_eq_some_iff] at hreplace
          obtain ⟨tail, htail, rfl⟩ := hreplace
          exact .cons ((Named.Kept.equivalence α assigned).refl block) (ih htail)

/-- Lists are equivalent if their items are. -/
theorem forall₂_equivalence {R : α → α → Prop} (hR : Equivalence R) :
    Equivalence (List.Forall₂ R) where
  refl items := List.forall₂_same.mpr fun item _ => hR.refl item
  symm hitems := (hitems.imp fun _ _ => hR.symm).flip
  trans := by
    intro first second third hfirst hsecond
    induction hfirst generalizing third with
    | nil => exact hsecond
    | cons hhead _ ih =>
        cases hsecond with
        | cons hhead' htail' => exact .cons (hR.trans hhead hhead') (ih htail')

namespace Frame

/-- All blocks of a frame, the innermost one first and the parameters last. -/
def blocks (frame : Frame α) : List (Named α) := frame.inner ++ [frame.parameters]

/-- The block in which variables are declared. -/
def innermost (frame : Frame α) : Named α := frame.inner.headD frame.parameters

theorem blocks_eq_cons (frame : Frame α) : frame.blocks = frame.innermost :: frame.blocks.tail := by
  rcases frame with ⟨scope, _ | ⟨block, rest⟩, parameters⟩ <;> rfl

/-- Every block binds the names that it bound before, and only names that may be
assigned have other values. -/
structure SameLocals (assigned : List String) (before after : Frame α) : Prop where
  scope : after.scope = before.scope
  blocks : List.Forall₂ (Named.Kept assigned) before.blocks after.blocks

/-- So it is for all blocks but the innermost one. -/
structure SameOuter (assigned : List String) (before after : Frame α) : Prop where
  scope : after.scope = before.scope
  blocks : List.Forall₂ (Named.Kept assigned) before.blocks.tail after.blocks.tail

variable {frame before after : Frame α}

variable (α) in
theorem sameLocals_equivalence (assigned : List String) :
    Equivalence (fun before after : Frame α => SameLocals assigned before after) :=
  have hblocks := forall₂_equivalence (Named.Kept.equivalence α assigned)
  { refl _ := ⟨rfl, hblocks.refl _⟩
    symm hsame := ⟨hsame.scope.symm, hblocks.symm hsame.blocks⟩
    trans hfirst hsecond :=
      ⟨hsecond.scope.trans hfirst.scope, hblocks.trans hfirst.blocks hsecond.blocks⟩ }

variable (α) in
theorem sameOuter_equivalence (assigned : List String) :
    Equivalence (fun before after : Frame α => SameOuter assigned before after) :=
  have hblocks := forall₂_equivalence (Named.Kept.equivalence α assigned)
  { refl _ := ⟨rfl, hblocks.refl _⟩
    symm hsame := ⟨hsame.scope.symm, hblocks.symm hsame.blocks⟩
    trans hfirst hsecond :=
      ⟨hsecond.scope.trans hfirst.scope, hblocks.trans hfirst.blocks hsecond.blocks⟩ }

theorem SameLocals.sameOuter (hsame : SameLocals assigned before after) :
    SameOuter assigned before after := by
  refine ⟨hsame.scope, ?_⟩
  have hblocks := hsame.blocks
  rw [before.blocks_eq_cons, after.blocks_eq_cons] at hblocks
  exact (List.forall₂_cons.mp hblocks).2

theorem sameLocals_of_replace? (hname : name ∈ assigned)
    (hreplace : before.replace? name value = some after) : SameLocals assigned before after := by
  have hkept := Named.Kept.equivalence α assigned
  rw [replace?] at hreplace
  cases hinner : Blocks.replace? before.inner name value with
  | some inner =>
      simp only [hinner, Option.some.injEq] at hreplace
      subst hreplace
      exact ⟨rfl, List.rel_append (Blocks.kept_of_replace? hname hinner)
        (.cons (hkept.refl before.parameters) .nil)⟩
  | none =>
      simp only [hinner, Option.map_eq_some_iff] at hreplace
      obtain ⟨parameters, hparameters, rfl⟩ := hreplace
      exact ⟨rfl, List.rel_append ((forall₂_equivalence hkept).refl before.inner)
        (.cons (.of_replace? hname hparameters) .nil)⟩

theorem scope_declare (frame : Frame α) (name : String) (value : α) :
    (frame.declare name value).scope = frame.scope := by
  rcases frame with ⟨scope, _ | ⟨block, rest⟩, parameters⟩ <;> rfl

theorem blocks_declare (frame : Frame α) (name : String) (value : α) :
    (frame.declare name value).blocks =
      Named.insert frame.innermost name value :: frame.blocks.tail := by
  rcases frame with ⟨scope, _ | ⟨block, rest⟩, parameters⟩ <;> rfl

theorem sameOuter_declare (assigned : List String) (frame : Frame α) (name : String) (value : α) :
    SameOuter assigned frame (frame.declare name value) := by
  refine ⟨frame.scope_declare name value, ?_⟩
  rw [blocks_declare]
  exact (forall₂_equivalence (Named.Kept.equivalence α assigned)).refl _

/-- A declaration changes the locals unless the innermost block binds the name
already, to the same value or to one that may be assigned. -/
theorem sameLocals_declare_iff : SameLocals assigned frame (frame.declare name value) ↔
    name ∈ Named.names frame.innermost ∧
      (name ∈ assigned ∨ Named.get? frame.innermost name = some value) := by
  rw [← Named.Kept.insert_iff]
  constructor
  · intro hsame
    have hblocks := hsame.blocks
    rw [blocks_declare, frame.blocks_eq_cons] at hblocks
    exact (List.forall₂_cons.mp hblocks).1
  · intro hkept
    refine ⟨frame.scope_declare name value, ?_⟩
    rw [blocks_declare, frame.blocks_eq_cons]
    exact .cons hkept ((forall₂_equivalence (Named.Kept.equivalence α assigned)).refl _)

/-- The current frame, if there is one, has become a related one, and the frames
below it are as before. -/
inductive OnTop (R : Frame α → Frame α → Prop) : List (Frame α) → List (Frame α) → Prop where
  | nil : OnTop R [] []
  | cons {before after : Frame α} {rest : List (Frame α)} (hframe : R before after) :
      OnTop R (before :: rest) (after :: rest)

namespace OnTop

variable {R R' : Frame α → Frame α → Prop} {frames frames' frames'' : List (Frame α)}

theorem refl (hR : Equivalence R) (frames : List (Frame α)) : OnTop R frames frames := by
  cases frames with
  | nil => exact .nil
  | cons frame rest => exact .cons (hR.refl frame)

theorem trans (hR : Equivalence R) (hfirst : OnTop R frames frames')
    (hsecond : OnTop R frames' frames'') : OnTop R frames frames'' := by
  cases hfirst with
  | nil => exact hsecond
  | cons hframe =>
      cases hsecond with
      | cons hframe' => exact .cons (hR.trans hframe hframe')

theorem mono (htop : OnTop R frames frames') (himp : ∀ before after, R before after →
    R' before after) : OnTop R' frames frames' := by
  cases htop with
  | nil => exact .nil
  | cons hframe => exact .cons (himp _ _ hframe)

/-- There is a current frame after, if there was one before. -/
theorem exists_of_cons {frame : Frame α} {rest : List (Frame α)}
    (htop : OnTop R (frame :: rest) frames') :
    ∃ changed, frames' = changed :: rest ∧ R frame changed := by
  cases htop with
  | cons hframe => exact ⟨_, rfl, hframe⟩

theorem eq_of_eq (htop : OnTop Eq frames frames') : frames' = frames := by
  cases htop with
  | nil => rfl
  | cons hframe => rw [hframe]

end OnTop

end Frame

namespace Storage

variable {storage updated : Storage α}

theorem onTop_declare (storage : Storage α) (name : String) (value : α) :
    Frame.OnTop (fun before after => after = before.declare name value) storage.frames
      (storage.declare name value).frames := by
  rw [declare]
  cases hframes : storage.frames with
  | nil =>
      simp only [declareGlobal, hframes]
      exact .nil
  | cons frame rest => exact .cons rfl

theorem onTop_of_assign {scope : Scope} (hname : name ∈ assigned)
    (hassign : storage.assign name value = some (updated, scope)) :
    Frame.OnTop (Frame.SameLocals assigned) storage.frames updated.frames := by
  have hrefl := Frame.OnTop.refl (Frame.sameLocals_equivalence α assigned) storage.frames
  rw [assign] at hassign
  cases hframes : storage.frames with
  | nil =>
      rw [hframes] at hassign
      rwa [frames_of_assignGlobal hassign, ← hframes]
  | cons frame rest =>
      simp only [hframes] at hassign
      cases hframe : frame.replace? name value with
      | some changed =>
          simp only [hframe, Option.some.injEq, Prod.mk.injEq] at hassign
          obtain ⟨rfl, _⟩ := hassign
          exact .cons (Frame.sameLocals_of_replace? hname hframe)
      | none =>
          rw [hframe] at hassign
          rwa [frames_of_assignGlobal hassign, ← hframes]

/-- What was declared in a block goes with it. -/
theorem onTop_popBlock
    (hbody : Frame.OnTop (Frame.SameOuter assigned) storage.pushBlock.frames updated.frames) :
    Frame.OnTop (Frame.SameLocals assigned) storage.frames updated.popBlock.frames := by
  rcases storage with ⟨globals, frames, activations, initialising⟩
  rcases updated with ⟨globals', frames', activations', initialising'⟩
  cases frames with
  | nil =>
      cases hbody
      exact .nil
  | cons frame rest =>
      cases hbody with
      | @cons _ inside _ hsame =>
          refine .cons ⟨hsame.scope, ?_⟩
          have hblocks := hsame.blocks
          rcases inside with ⟨scope, _ | ⟨block, outer⟩, parameters⟩
          · -- a single block is too few, since the parameters are below the one entered
            have hlength : frame.inner.length + 1 = 0 := by
              simpa [Frame.blocks] using hblocks.length_eq
            omega
          · exact hblocks

end Storage

end ArchSpec
