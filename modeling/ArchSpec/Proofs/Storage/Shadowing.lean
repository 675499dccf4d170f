import ArchSpec.Proofs.Storage.Frames
import ArchSpec.Proofs.Storage.Locals

/-!
# Shadowing

A name that an inner block binds hides the outer bindings of it: they are out of
reach of assignments and declarations, whatever becomes of other names.  The
globals are one more block, outside all blocks of the current frame.
-/

namespace ArchSpec

variable {α : Type} {name other : String} {value : α}

namespace Blocks

/-- Each block has the same value under a name, or none. -/
def Same (name : String) : List (Named α) → List (Named α) → Prop :=
  List.Forall₂ fun before after => Named.get? after name = Named.get? before name

/-- A block that binds a name goes on to bind it, and further out each block has the
same value under it, or none. -/
inductive Shaded (name : String) : List (Named α) → List (Named α) → Prop where
  | nil : Shaded name [] []
  | unbound {block changed : Named α} {rest rest' : List (Named α)}
      (hblock : Named.get? block name = none) (hrest : Shaded name rest rest') :
      Shaded name (block :: rest) (changed :: rest')
  | bound {block changed : Named α} {rest rest' : List (Named α)}
      (hblock : Named.get? block name ≠ none) (hchanged : Named.get? changed name ≠ none)
      (hrest : Same name rest rest') : Shaded name (block :: rest) (changed :: rest')

variable {block changed : Named α} {before between after rest : List (Named α)}

variable (α) in
theorem same_equivalence (name : String) : Equivalence (Same (α := α) name) :=
  forall₂_equivalence ⟨fun _ => rfl, Eq.symm, fun hfirst hsecond => hsecond.trans hfirst⟩

theorem Same.get? (hsame : Same name before after) : get? after name = get? before name := by
  induction hsame with
  | nil => rfl
  | cons hblock _ ih => rw [Blocks.get?, Blocks.get?, hblock, ih]

/-- The outermost blocks have the same value under a name, or none. -/
theorem Same.last (hsame : Same name (before ++ [block]) (after ++ [changed])) :
    Named.get? changed name = Named.get? block name := by
  rw [Same, ← List.forall₂_reverse_iff, List.reverse_concat, List.reverse_concat] at hsame
  exact (List.forall₂_cons.mp hsame).1

theorem get?_append (blocks rest : List (Named α)) (name : String) :
    get? (blocks ++ rest) name = (get? blocks name).or (get? rest name) := by
  induction blocks with
  | nil => rfl
  | cons block outer ih =>
      rw [List.cons_append, get?, get?, ih]
      cases Named.get? block name <;> rfl

theorem Same.shaded (hsame : Same name before after) : Shaded name before after := by
  induction hsame with
  | nil => exact .nil
  | @cons block changed rest rest' hblock hrest ih =>
      by_cases hbound : Named.get? block name = none
      · exact .unbound hbound ih
      · exact .bound hbound (hblock ▸ hbound) hrest

namespace Shaded

theorem refl (blocks : List (Named α)) : Shaded name blocks blocks :=
  Same.shaded ((same_equivalence α name).refl blocks)

theorem trans (hfirst : Shaded name before between) (hsecond : Shaded name between after) :
    Shaded name before after := by
  induction hfirst generalizing after with
  | nil => exact hsecond
  | unbound hblock _ ih =>
      cases hsecond with
      | unbound _ hrest => exact .unbound hblock (ih hrest)
      | bound _ _ hrest => exact .unbound hblock (ih hrest.shaded)
  | bound hblock hchanged hrest =>
      cases hsecond with
      | unbound hnone _ => exact absurd hnone hchanged
      | bound _ hchanged' hrest' =>
          exact .bound hblock hchanged' ((same_equivalence α name).trans hrest hrest')

/-- A change of the innermost block, which keeps its binding. -/
theorem of_head (hkept : Named.get? block name ≠ none → Named.get? changed name ≠ none) :
    Shaded name (block :: rest) (changed :: rest) := by
  by_cases hblock : Named.get? block name = none
  · exact .unbound hblock (.refl rest)
  · exact .bound hblock (hkept hblock) ((same_equivalence α name).refl rest)

/-- To declare another variable, or this one, in the innermost block. -/
theorem insert (block : Named α) (rest : List (Named α)) (other : String) (value : α) :
    Shaded name (block :: rest) (Named.insert block other value :: rest) := by
  apply of_head
  intro hbound
  rw [Named.get?_insert]
  split
  · simp
  · exact hbound

/-- What was shaded inside an empty block is shaded without it. -/
theorem of_empty (hshaded : Shaded name ([] :: before) after) :
    ∃ block rest, after = block :: rest ∧ Shaded name before rest := by
  cases hshaded with
  | unbound _ hrest => exact ⟨_, _, rfl, hrest⟩
  | bound hblock _ _ => exact absurd rfl hblock

/-- Outside a block that binds the name nothing has changed. -/
theorem of_bound (hblock : Named.get? block name ≠ none)
    (hshaded : Shaded name (block :: before) after) :
    ∃ changed rest, after = changed :: rest ∧ Same name before rest := by
  cases hshaded with
  | unbound hnone _ => exact absurd hnone hblock
  | bound _ _ hrest => exact ⟨_, _, rfl, hrest⟩

theorem length_eq (hshaded : Shaded name before after) : after.length = before.length := by
  induction hshaded with
  | nil => rfl
  | unbound _ _ ih => exact congrArg (· + 1) ih
  | bound _ _ hrest => exact congrArg (· + 1) hrest.length_eq.symm

end Shaded

/-! ## Assignments -/

theorem replace?_append (blocks rest : List (Named α)) (name : String) (new : α) :
    replace? (blocks ++ rest) name new =
      match replace? blocks name new with
      | some blocks => some (blocks ++ rest)
      | none => (replace? rest name new).map (blocks ++ ·) := by
  induction blocks with
  | nil => simp [replace?]
  | cons block outer ih =>
      simp only [List.cons_append, replace?]
      cases Named.replace? block name new with
      | some changed => rfl
      | none =>
          rw [ih]
          cases replace? outer name new with
          | some outer => rfl
          | none => cases replace? rest name new <;> rfl

theorem same_of_replace? (hother : other ≠ name)
    (hreplace : replace? before other value = some after) : Same name before after := by
  induction before generalizing after with
  | nil => nomatch hreplace
  | cons block rest ih =>
      rw [replace?] at hreplace
      cases hblock : Named.replace? block other value with
      | some changed =>
          simp only [hblock, Option.some.injEq] at hreplace
          subst hreplace
          refine .cons ?_ ((same_equivalence α name).refl rest)
          rw [Named.get?_of_replace? hblock, if_neg hother]
      | none =>
          simp only [hblock, Option.map_eq_some_iff] at hreplace
          obtain ⟨tail, htail, rfl⟩ := hreplace
          exact .cons rfl (ih htail)

/-- To assign a variable overwrites what the innermost block has that binds it. -/
theorem shaded_of_replace? (hreplace : replace? before other value = some after) :
    Shaded name before after := by
  by_cases hother : other = name
  · subst hother
    induction before generalizing after with
    | nil => nomatch hreplace
    | cons block rest ih =>
        rw [replace?] at hreplace
        cases hblock : Named.replace? block other value with
        | some changed =>
            simp only [hblock, Option.some.injEq] at hreplace
            subst hreplace
            apply Shaded.of_head
            rw [Named.get?_of_replace? hblock, if_pos rfl]
            simp
        | none =>
            simp only [hblock, Option.map_eq_some_iff] at hreplace
            obtain ⟨tail, htail, rfl⟩ := hreplace
            exact .unbound (Named.replace?_eq_none_iff.mp hblock) (ih htail)
  · exact (same_of_replace? hother hreplace).shaded

end Blocks

namespace Frame

/-- The frame inside one more block. -/
def enter (frame : Frame α) (block : Named α) : Frame α :=
  { frame with inner := block :: frame.inner }

theorem blocks_enter (frame : Frame α) (block : Named α) :
    (frame.enter block).blocks = block :: frame.blocks := rfl

theorem length_blocks (frame : Frame α) : frame.blocks.length = frame.inner.length + 1 := by
  rw [blocks, List.length_append, List.length_singleton]

theorem get?_blocks (frame : Frame α) (name : String) :
    Blocks.get? frame.blocks name = frame.get? name := by
  rw [blocks, Blocks.get?_append, get?, Blocks.get?, Blocks.get?]
  cases Blocks.get? frame.inner name with
  | some value => rfl
  | none => cases Named.get? frame.parameters name <;> rfl

theorem replace?_blocks (frame : Frame α) (name : String) (new : α) :
    Blocks.replace? frame.blocks name new = (frame.replace? name new).map blocks := by
  rw [blocks, Blocks.replace?_append, replace?]
  cases Blocks.replace? frame.inner name new with
  | some inner => rfl
  | none => cases hparameters : Named.replace? frame.parameters name new <;>
      simp [Blocks.replace?, hparameters, blocks]

end Frame

namespace Storage

/-- The blocks around all frames: the globals, if they count. -/
def outside (shared : Bool) (storage : Storage α) : List (Named α) :=
  if shared then [storage.globals] else []

/-- Under the frames and the blocks that a fault may have left on top, `frame` lies
with its blocks, which a relation allows to have changed with those around them. -/
def Lies (S : List (Named α) → List (Named α) → Prop) (shared : Bool) (frame : Frame α)
    (rest : List (Frame α)) (before : Storage α) (extra : List (Frame α))
    (top : List (Named α)) (after : Storage α) : Prop :=
  ∃ kept lower, after.frames = extra ++ kept :: rest ∧ kept.scope = frame.scope ∧
    kept.blocks = top ++ lower ∧
    S (frame.blocks ++ before.outside shared) (lower ++ after.outside shared)

theorem length_outside (shared : Bool) (storage : Storage α) :
    (storage.outside shared).length = shared.toNat := by
  cases shared <;> rfl

variable {storage before between after updated : Storage α} {scope : Scope} {shared : Bool}
variable {frame kept : Frame α} {rest extra : List (Frame α)} {top : List (Named α)}
variable {S S' : List (Named α) → List (Named α) → Prop}

/-- A variable is looked up in the blocks of the current frame and among the globals. -/
theorem lookup_value (hframes : storage.frames = frame :: rest) (name : String) :
    (storage.lookup name).map Prod.fst =
      Blocks.get? (frame.blocks ++ storage.outside true) name := by
  rw [Blocks.get?_append, frame.get?_blocks, outside, if_pos rfl, lookup, hframes]
  simp only
  cases frame.get? name with
  | some value => rfl
  | none =>
      rw [lookupGlobal, Blocks.get?, Blocks.get?]
      cases Named.get? storage.globals name <;> rfl

namespace Lies

/-- Nothing was left on top of the current frame. -/
theorem of_current (hafter : after.frames = kept :: rest) (hscope : kept.scope = frame.scope)
    (hblocks : S (frame.blocks ++ before.outside shared) (kept.blocks ++ after.outside shared)) :
    Lies S shared frame rest before [] [] after :=
  ⟨kept, kept.blocks, hafter, hscope, rfl, hblocks⟩

theorem exists_current (hlies : Lies S shared frame rest before [] [] after) :
    ∃ kept, after.frames = kept :: rest ∧ kept.scope = frame.scope ∧
      S (frame.blocks ++ before.outside shared) (kept.blocks ++ after.outside shared) := by
  obtain ⟨kept, lower, hframes, hscope, hblocks, hlower⟩ := hlies
  rw [List.nil_append] at hblocks
  exact ⟨kept, hframes, hscope, hblocks ▸ hlower⟩

/-- What begins where nothing was left on top counts from before. -/
theorem after_current (hS : ∀ {first second third}, S first second → S second third → S first third)
    (hscope : kept.scope = frame.scope)
    (hblocks : S (frame.blocks ++ before.outside shared) (kept.blocks ++ between.outside shared))
    (hlies : Lies S shared kept rest between extra top after) :
    Lies S shared frame rest before extra top after := by
  obtain ⟨last, lower, hframes, hscope', htop, hlower⟩ := hlies
  exact ⟨last, lower, hframes, hscope'.trans hscope, htop, hS hblocks hlower⟩

end Lies

theorem lies_declare (hframes : storage.frames = frame :: rest) (other : String) (value : α) :
    Lies (Blocks.Shaded name) shared frame rest storage [] [] (storage.declare other value) := by
  have hdeclare : storage.declare other value =
      { storage with frames := frame.declare other value :: rest } := by rw [declare, hframes]
  rw [hdeclare]
  refine .of_current rfl (frame.scope_declare other value) ?_
  rw [frame.blocks_declare, frame.blocks_eq_cons]
  exact Blocks.Shaded.insert _ _ other value

theorem lies_of_assign (hframes : storage.frames = frame :: rest)
    (hassign : storage.assign other value = some (updated, scope)) :
    Lies (Blocks.Shaded name) shared frame rest storage [] [] updated := by
  have hreplace := frame.replace?_blocks other value
  rw [assign, hframes] at hassign
  cases hframe : frame.replace? other value with
  | some changed =>
      simp only [hframe, Option.some.injEq, Prod.mk.injEq] at hassign
      obtain ⟨rfl, _⟩ := hassign
      refine .of_current rfl (Frame.shape_of_replace? hframe).1 ?_
      have hblocks : Blocks.replace? (frame.blocks ++ storage.outside shared) other value =
          some (changed.blocks ++ storage.outside shared) := by
        rw [Blocks.replace?_append, hreplace, hframe]
        rfl
      exact Blocks.shaded_of_replace? hblocks
  | none =>
      simp only [hframe, assignGlobal, Option.map_eq_some_iff, Prod.mk.injEq] at hassign
      obtain ⟨globals, hglobals, rfl, _⟩ := hassign
      refine .of_current hframes rfl ?_
      cases shared with
      | false => exact .refl _
      | true =>
          have hblocks : Blocks.replace? (frame.blocks ++ [storage.globals]) other value =
              some (frame.blocks ++ [globals]) := by
            rw [Blocks.replace?_append, hreplace, hframe]
            simp [Blocks.replace?, hglobals]
          exact Blocks.shaded_of_replace? hblocks

/-! ## Blocks of their own -/

/-- A relation inside a block allows no more than another one outside it. -/
def Uncovers (block : Named α) (S S' : List (Named α) → List (Named α) → Prop) : Prop :=
  ∀ {first after}, S (block :: first) after →
    ∃ changed rest, after = changed :: rest ∧ S' first rest ∧ rest.length = first.length

theorem uncovers_empty : Uncovers [] (Blocks.Shaded (α := α) name) (Blocks.Shaded name) := by
  intro first after hshaded
  obtain ⟨changed, rest, rfl, hrest⟩ := hshaded.of_empty
  exact ⟨changed, rest, rfl, hrest, hrest.length_eq⟩

theorem uncovers_bound {block : Named α} (hblock : Named.get? block name ≠ none) :
    Uncovers block (Blocks.Shaded name) (Blocks.Same name) := by
  intro first after hshaded
  obtain ⟨changed, rest, rfl, hrest⟩ := hshaded.of_bound hblock
  exact ⟨changed, rest, rfl, hrest, hrest.length_eq.symm⟩

section Entered

variable {block : Named α} {entered : Storage α} (hS : Uncovers block S S')
variable (houtside : entered.outside shared = before.outside shared)

include hS houtside

/-- After a fault the block is one of those on top. -/
theorem lies_of_entered (hlies : Lies S shared (frame.enter block) rest
    entered extra top after) : ∃ top, Lies S' shared frame rest before extra top after := by
  obtain ⟨kept, lower, hframes, hscope, htop, hlower⟩ := hlies
  rw [frame.blocks_enter, List.cons_append, houtside] at hlower
  obtain ⟨changed, outer, houter, hrelated, hlength⟩ := hS hlower
  rw [List.length_append, frame.length_blocks, length_outside] at hlength
  cases lower with
  | nil =>
      -- the parameters are below the block that was entered
      have hcount := congrArg List.length houter
      rw [List.nil_append, length_outside, List.length_cons] at hcount
      omega
  | cons first lower =>
      obtain ⟨rfl, rfl⟩ := List.cons.inj houter
      refine ⟨top ++ [first], kept, lower, hframes, hscope, ?_, hrelated⟩
      rw [htop, List.append_assoc]
      rfl

/-- Without one, leaving the block takes it away. -/
theorem lies_popBlock (hlies : Lies S shared (frame.enter block) rest
    entered [] [] after) : Lies S' shared frame rest before [] [] after.popBlock := by
  obtain ⟨kept, hframes, hscope, hblocks⟩ := hlies.exists_current
  rw [frame.blocks_enter, List.cons_append, houtside] at hblocks
  obtain ⟨changed, outer, houter, hrelated, hlength⟩ := hS hblocks
  rw [List.length_append, frame.length_blocks, length_outside] at hlength
  rcases kept with ⟨scope, _ | ⟨first, inner⟩, parameters⟩
  · have hcount := congrArg List.length houter
    rw [List.length_append, Frame.length_blocks, length_outside, List.length_cons,
      List.length_nil] at hcount
    omega
  · have hpop : after.popBlock =
        { after with frames := ⟨scope, inner, parameters⟩ :: rest } := by
      rw [popBlock, onFrame, hframes]
      rfl
    rw [hpop]
    refine .of_current rfl hscope ?_
    obtain ⟨_, rfl⟩ := List.cons.inj houter
    exact hrelated

end Entered

end Storage

end ArchSpec
