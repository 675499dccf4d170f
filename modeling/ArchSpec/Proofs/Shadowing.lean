import ArchSpec.Proofs.BlockLocals
import ArchSpec.Proofs.Endings
import ArchSpec.Proofs.Storage.Shadowing

/-!
# Shadowed variables

While a block of the current frame binds a name, no assignment and no declaration
reaches an outer binding of it, be it in the frame or among the globals.  Only calls
could, and they have no access to the frame either: it is still there, as it was,
below all that a call leaves behind.
-/

namespace ArchSpec

variable {α : Type} {Q : α → Prop} {name : String} {shared : Bool}

namespace Storage

/-! ## Frames below the current one -/

/-- All frames but the current one are still there. -/
def Sunk (before after : Storage Value) : Prop := before.frames.tail <:+ after.frames.tail

variable {storage before after : Storage Value}

theorem sunk_of_tail_eq (htail : after.frames.tail = before.frames.tail) : Sunk before after :=
  ⟨[], htail.symm⟩

theorem tail_onFrame (storage : Storage Value) (change : Frame Value → Frame Value) :
    (storage.onFrame change).frames.tail = storage.frames.tail := by
  rw [onFrame]
  split
  · rename_i hframes
    rw [hframes, List.tail_cons, List.tail_cons]
  · rfl

/-- All frames are still there. -/
def Under (before after : Storage Value) : Prop := before.frames <:+ after.frames

theorem under_of_frames_eq (hframes : after.frames = before.frames) : Under before after :=
  ⟨[], hframes.symm⟩

theorem under_of_sunk_pushFrame {subprogram : String}
    (hsunk : Sunk (storage.pushFrame subprogram) after) : Under storage after :=
  List.IsSuffix.trans hsunk (List.tail_suffix _)

theorem under_popFrame {subprogram : String} (hsunk : Sunk (storage.pushFrame subprogram) after) :
    Under storage after.popFrame := hsunk

theorem Under.sunk (hunder : Under before after) : Sunk before after := by
  have hlength := hunder.length_le
  apply List.suffix_of_suffix_length_le ((List.tail_suffix _).trans hunder) (List.tail_suffix _)
  rw [List.length_tail, List.length_tail]
  omega

end Storage

namespace Eval

open Storage (Sunk Under)

theorem sunk_laws : EndLaws Sunk Sunk :=
  .of_preorder (fun _ => List.suffix_refl _) fun hfirst hsecond => hfirst.trans hsecond

theorem under_laws : EndLaws Under Under :=
  .of_preorder (fun _ => List.suffix_refl _) fun hfirst hsecond => hfirst.trans hsecond

theorem under_inActivation {body : Eval α} (subprogram : String) (hbody : Ending Sunk Sunk Q body) :
    Ending Under Under Q (Eval.inActivation subprogram body) := by
  have hcount : Ending Under Under Anything (Eval.countActivation subprogram) := by
    apply Ending.of_same under_laws _ fun _ _ _ => trivial
    intro before
    rw [snd_countActivation]
  exact hcount.bind under_laws fun _ _ =>
    hbody.within (fun _ _ => Storage.under_popFrame) (fun _ _ => Storage.under_of_sunk_pushFrame) id

/-- Whatever the evaluator does and however it ends, it leaves the frames below the
current one where they are, and a call has no access to the frame of its caller. -/
theorem under_activationRel :
    ActivationRel Anything Anything (.single fun _ Q body => Ending Under Under Q body)
      (.single fun _ Q body => Ending Sunk Sunk Q body) where
  expr := Ending.exprRel under_laws fun hfirst hsecond => hfirst.trans hsecond
  embed hbody := hbody.mono Under.sunk Under.sunk
  bind hbody hnext := hbody.bind sunk_laws hnext
  writeVariable _ := .writeVariable sunk_laws fun hassign =>
    Storage.sunk_of_tail_eq (Storage.sameFrames_of_assign hassign).below
  declareLocal _ := .declareLocal sunk_laws fun storage =>
    Storage.sunk_of_tail_eq (storage.sameFrames_declare _ _).below
  inBlock hbody := by
    apply hbody.inBlock sunk_laws
    · intro before after hsunk
      rw [Sunk, Storage.pushBlock, Storage.tail_onFrame] at hsunk
      rw [Sunk, Storage.popBlock, Storage.tail_onFrame]
      exact hsunk
    · intro before after hsunk
      rw [Sunk, Storage.pushBlock, Storage.tail_onFrame] at hsunk
      exact hsunk
  whileHandling _ hbody := hbody.whileHandling sunk_laws _
  handling hbody hhandler := hbody.handling sunk_laws fun exc => hhandler exc trivial
  throwing _ := .outcome sunk_laws nofun
  raiseAgain := .raiseAgain sunk_laws
  exhaust := .outcome sunk_laws nofun
  inActivation hbody := under_inActivation _ hbody
  print := .of_same under_laws (fun _ => rfl) fun _ _ _ => trivial
  exhaustCall := .outcome under_laws nofun

theorem under_callWithin (subprograms : String → Option Subprogram) (unroll bound : Nat)
    (caller : Caller) (name : String) (values : List Value) :
    Ending Under Under (Value.Each Anything)
      (callWithin subprograms unroll bound caller name values) :=
  callWithin_activation under_activationRel .anything (Ending.checkUnroll sunk_laws unroll)
    subprograms bound fun _ _ => trivial

end Eval

/-! ## Expressions -/

namespace Storage

/-- All frames are as before, and so is the global of a name if globals count. -/
structure Unmoved (name : String) (shared : Bool) (before after : Storage Value) : Prop where
  frames : after.frames = before.frames
  globals : Blocks.Same name (before.outside shared) (after.outside shared)

/-- All frames are there under others, and the global of a name is as before if globals
count. -/
structure Overlaid (name : String) (shared : Bool) (before after : Storage Value) : Prop where
  frames : Under before after
  globals : Blocks.Same name (before.outside shared) (after.outside shared)

variable {before between after : Storage Value}

theorem Overlaid.trans (hfirst : Overlaid name shared before between)
    (hsecond : Overlaid name shared between after) : Overlaid name shared before after :=
  ⟨hfirst.frames.trans hsecond.frames,
    (Blocks.same_equivalence Value name).trans hfirst.globals hsecond.globals⟩

theorem Unmoved.overlaid (hsame : Unmoved name shared before after) :
    Overlaid name shared before after :=
  ⟨under_of_frames_eq hsame.frames, hsame.globals⟩

end Storage

namespace Eval

open Storage (Unmoved Overlaid)

theorem unmoved_laws (name : String) (shared : Bool) :
    EndLaws (Unmoved name shared) (Overlaid name shared) where
  refl _ := ⟨rfl, (Blocks.same_equivalence Value name).refl _⟩
  weaken := Unmoved.overlaid
  trans hfirst hsecond := ⟨hsecond.frames.trans hfirst.frames,
    (Blocks.same_equivalence Value name).trans hfirst.globals hsecond.globals⟩
  follow hfirst hsecond := hfirst.overlaid.trans hsecond

theorem unmoved_exprRel (name : String) (shared : Bool) :
    ExprRel Anything (.single fun _ Q body =>
      Ending (Unmoved name shared) (Overlaid name shared) Q body) :=
  Ending.exprRel (unmoved_laws name shared) Overlaid.trans

/-- However it ends, a computation leaves the global of a name as it was. -/
def KeepsGlobal (name : String) (body : Eval α) : Prop :=
  ∀ before, Named.get? (body before).2.storage.globals name =
    Named.get? before.storage.globals name

theorem unmoved_callWithin (subprograms : String → Option Subprogram) (unroll bound : Nat)
    (caller : Caller) (callee : String) (values : List Value)
    (hglobal : shared = true →
      KeepsGlobal name (callWithin subprograms unroll bound caller callee values)) :
    Ending (Unmoved name shared) (Overlaid name shared) (Value.Each Anything)
      (callWithin subprograms unroll bound caller callee values) := by
  intro before
  have hunder := under_callWithin subprograms unroll bound caller callee values before
  have hframes := (keeps_callWithin subprograms unroll bound caller callee values before).frames
  have hsame : Blocks.Same name (before.storage.outside shared)
      ((callWithin subprograms unroll bound caller callee values before).2.storage.outside
        shared) := by
    cases shared with
    | false => exact .nil
    | true => exact .cons (hglobal rfl before) .nil
  exact ⟨fun _ _ _ _ => trivial, fun hnonfatal => ⟨(hframes hnonfatal).eq_of_eq, hsame⟩,
    ⟨hunder.left, hsame⟩⟩

end Eval

/-! ## Statements -/

namespace Storage

/-- The current frame lies on top, related to what it was. -/
def Settled (S : List (Named Value) → List (Named Value) → Prop) (shared : Bool)
    (before after : Storage Value) : Prop :=
  ∀ frame rest, before.frames = frame :: rest → Lies S shared frame rest before [] [] after

/-- The frame that was the current one lies somewhere. -/
def Buried (S : List (Named Value) → List (Named Value) → Prop) (shared : Bool)
    (before after : Storage Value) : Prop :=
  ∀ frame rest, before.frames = frame :: rest →
    ∃ extra top, Lies S shared frame rest before extra top after

variable {S : List (Named Value) → List (Named Value) → Prop}
variable {before between after : Storage Value}

theorem Settled.buried (hsettled : Settled S shared before after) : Buried S shared before after :=
  fun frame rest hframes => ⟨[], [], hsettled frame rest hframes⟩

/-- The blocks of the frame alone are related if globals do not count. -/
theorem Settled.exists_frame {frame : Frame Value} {rest : List (Frame Value)}
    (hsettled : Settled S false before after) (hframes : before.frames = frame :: rest) :
    ∃ kept, after.frames = kept :: rest ∧ kept.scope = frame.scope ∧
      S frame.blocks kept.blocks := by
  simpa only [outside, Bool.false_eq_true, if_false, List.append_nil]
    using (hsettled frame rest hframes).exists_current

/-- Where no frame was touched, nothing that was shaded is uncovered. -/
theorem Unmoved.settled (hsame : Unmoved name shared before after) :
    Settled (Blocks.Shaded name) shared before after := by
  intro frame rest hframes
  refine .of_current (hsame.frames.trans hframes) rfl ?_
  exact Blocks.Same.shaded
    (List.rel_append ((Blocks.same_equivalence Value name).refl frame.blocks) hsame.globals)

theorem Overlaid.buried (hover : Overlaid name shared before after) :
    Buried (Blocks.Shaded name) shared before after := by
  intro frame rest hframes
  obtain ⟨extra, hextra⟩ := hover.frames
  rw [hframes] at hextra
  refine ⟨extra, [], frame, frame.blocks, hextra.symm, rfl, rfl, ?_⟩
  exact Blocks.Same.shaded
    (List.rel_append ((Blocks.same_equivalence Value name).refl frame.blocks) hover.globals)

theorem outside_onFrame (storage : Storage Value) (change : Frame Value → Frame Value) :
    (storage.onFrame change).outside shared = storage.outside shared := by
  rw [onFrame]
  split <;> rfl

theorem frames_pushBlock {frame : Frame Value} {rest : List (Frame Value)}
    (hframes : before.frames = frame :: rest) :
    before.pushBlock.frames = frame.enter [] :: rest := by
  rw [pushBlock, onFrame, hframes]
  rfl

theorem settled_popBlock (hbody : Settled (Blocks.Shaded name) shared before.pushBlock after) :
    Settled (Blocks.Shaded name) shared before after.popBlock := by
  intro frame rest hframes
  have houtside : before.pushBlock.outside shared = before.outside shared :=
    before.outside_onFrame _
  exact lies_popBlock uncovers_empty houtside (hbody _ _ (frames_pushBlock hframes))

theorem buried_of_pushBlock (hbody : Buried (Blocks.Shaded name) shared before.pushBlock after) :
    Buried (Blocks.Shaded name) shared before after := by
  intro frame rest hframes
  have houtside : before.pushBlock.outside shared = before.outside shared :=
    before.outside_onFrame _
  obtain ⟨extra, top, hlies⟩ := hbody _ _ (frames_pushBlock hframes)
  obtain ⟨top, hlies⟩ := lies_of_entered uncovers_empty houtside hlies
  exact ⟨extra, top, hlies⟩

end Storage

namespace Eval

open Storage (Settled Buried Unmoved Overlaid)

theorem settled_laws {S : List (Named Value) → List (Named Value) → Prop} (shared : Bool)
    (hrefl : ∀ blocks, S blocks blocks)
    (htrans : ∀ {first second third}, S first second → S second third → S first third) :
    EndLaws (Settled S shared) (Buried S shared) where
  refl storage frame rest hframes := .of_current hframes rfl (hrefl _)
  weaken := Settled.buried
  trans hfirst hsecond frame rest hframes := by
    obtain ⟨kept, hkept, hscope, hblocks⟩ := (hfirst frame rest hframes).exists_current
    exact .after_current htrans hscope hblocks (hsecond kept rest hkept)
  follow hfirst hsecond frame rest hframes := by
    obtain ⟨kept, hkept, hscope, hblocks⟩ := (hfirst frame rest hframes).exists_current
    obtain ⟨extra, top, hlies⟩ := hsecond kept rest hkept
    exact ⟨extra, top, .after_current htrans hscope hblocks hlies⟩

/-- However it ends, a computation leaves outer bindings of a name alone while an inner
block binds it. -/
def Shades (name : String) (shared : Bool) (Q : α → Prop) (body : Eval α) : Prop :=
  Ending (Settled (Blocks.Shaded name) shared) (Buried (Blocks.Shaded name) shared) Q body

theorem Ending.shades {body : Eval α}
    (hbody : Ending (Unmoved name shared) (Overlaid name shared) Q body) :
    Shades name shared Q body :=
  hbody.mono Storage.Unmoved.settled Storage.Overlaid.buried

theorem shades_stepRel (name : String) (shared : Bool) :
    StepRel Anything Anything
      (.single fun _ Q body => Ending (Unmoved name shared) (Overlaid name shared) Q body)
      (.single fun _ Q body => Shades name shared Q body) :=
  have hlaws : EndLaws (Settled (Blocks.Shaded name) shared) (Buried (Blocks.Shaded name) shared) :=
    settled_laws shared Blocks.Shaded.refl .trans
  { expr := unmoved_exprRel name shared
    embed hbody := hbody.shades
    bind hbody hnext := hbody.bind hlaws hnext
    writeVariable _ := .writeVariable hlaws fun hassign _ _ hframes =>
      Storage.lies_of_assign hframes hassign
    declareLocal _ := .declareLocal hlaws fun _ _ _ hframes =>
      Storage.lies_declare hframes _ _
    inBlock hbody := hbody.inBlock hlaws Storage.settled_popBlock Storage.buried_of_pushBlock
    whileHandling _ hbody := hbody.whileHandling hlaws _
    handling hbody hhandler := hbody.handling hlaws fun exc => hhandler exc trivial
    throwing _ := .outcome hlaws nofun
    raiseAgain := .raiseAgain hlaws
    exhaust := .outcome hlaws nofun }

end Eval

open Eval

/-- A statement shades outer bindings of its frame, whatever it calls, and the global
if its calls leave that as it was. -/
theorem Stmt.exec_shades (subprograms : String → Option Subprogram) (unroll bound rounds : Nat)
    (stmt : Stmt)
    (hglobal : shared = true → ∀ site ∈ stmt.calls, ∀ values,
      KeepsGlobal name (callWithin subprograms unroll bound site.caller site.callee values)) :
    Shades name shared (Flow.Returns Anything)
      (stmt.exec ⟨callWithin subprograms unroll bound, rounds, unroll⟩) :=
  let context : Context := ⟨callWithin subprograms unroll bound, rounds, unroll⟩
  have hR := shades_stepRel name shared
  have hunroll (finished : Nat) : Shades name shared Anything (checkUnroll unroll finished) :=
    (Ending.checkUnroll (unmoved_laws name shared) unroll finished).shades
  have hloop : LoopRel (.single fun _ Q body => Shades name shared Q body) context context :=
    ⟨.refl _ rounds, hunroll⟩
  have hcalls : CallsRel Anything
      (.single fun _ Q body => Ending (Storage.Unmoved name shared) (Storage.Overlaid name shared) Q
        body) context.calls context.calls stmt.calls :=
    fun site hsite values _ _ => unmoved_callWithin subprograms unroll bound site.caller
      site.callee values fun hshared => hglobal hshared site hsite values
  Stmt.exec_related hR .anything hloop stmt hcalls

end ArchSpec
