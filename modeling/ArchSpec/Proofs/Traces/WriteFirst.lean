import ArchSpec.Proofs.Invariants.Evaluator
import ArchSpec.Proofs.Storage.Bindings
import ArchSpec.Proofs.Traces.Contents

/-!
# Writes come before reads

Variables come to be when globals are initialised, as parameters, by
declarations, as the index of a loop and as the exception of a handler.  Each
time a write is recorded, in the very scope in which the variable is bound then.
So of every variable that there is at some moment the trace contains a write, and
therefore of every variable that was read.  A local declaration outside of all
activations would make a global variable, so this rests on statements running
inside activations only, and initialisers only while globals are initialised.
-/

namespace ArchSpec

namespace State

/-- To note an access adds it to the trace. -/
theorem mem_note {state : State} {access : Access} {name : String} {scope : Scope} {event : Event}
    (hrecording : state.recorder ≠ .off) :
    event ∈ (state.note access name scope).recorder.contents ↔
      event = ⟨access, name, scope⟩ ∨ event ∈ state.recorder.contents :=
  Recorder.mem_contents_record hrecording

/-- The trace contains a write of every variable that there is, and of every one
that it contains a read of. -/
structure Written (state : State) : Prop where
  locals : ∀ frame ∈ state.storage.frames, ∀ name, (frame.get? name).isSome →
    ⟨.write, name, frame.scope⟩ ∈ state.recorder.contents
  globals : ∀ name, (Named.get? state.storage.globals name).isSome →
    ⟨.write, name, .global true⟩ ∈ state.recorder.contents
  localReads : ∀ name subprogram number,
    ⟨.read, name, .activation subprogram number⟩ ∈ state.recorder.contents →
    ⟨.write, name, .activation subprogram number⟩ ∈ state.recorder.contents
  globalReads : ∀ name initialising,
    ⟨.read, name, .global initialising⟩ ∈ state.recorder.contents →
    ⟨.write, name, .global true⟩ ∈ state.recorder.contents

/-- What every step keeps, inside an activation if `framed` and while globals are
initialised if `initial`. -/
structure Traced (framed initial : Bool) (state : State) : Prop where
  bound : ∀ {name : String} {scope : Scope}, state.storage.Binds name scope →
    ⟨.write, name, scope⟩ ∈ state.recorder.contents
  reads : ∀ {name : String} {scope : Scope}, ⟨.read, name, scope⟩ ∈ state.recorder.contents →
    ⟨.write, name, scope.origin⟩ ∈ state.recorder.contents
  recording : state.recorder ≠ .off
  /-- Frames are those of activations. -/
  scopes : ∀ scope ∈ state.storage.frames.map Frame.scope, scope.origin = scope
  framed : framed = true → state.storage.frames.map Frame.scope ≠ []
  initial : initial = true → state.storage.initialising = true

namespace Traced

variable {framed initial : Bool} {state before after : State} {name : String} {scope : Scope}

theorem start : Traced false false (State.start true) where
  bound hbinds := by
    cases hbinds with
    | ofFrame hframe _ => nomatch hframe
    | ofGlobal hname => nomatch hname
  reads hread := nomatch hread
  recording := nofun
  scopes _ hmem := nomatch hmem
  framed := nofun
  initial := nofun

theorem written (htraced : state.Traced framed initial) : state.Written where
  locals _ hframe _ hname := htraced.bound (.ofFrame hframe hname)
  globals _ hname := htraced.bound (.ofGlobal hname)
  localReads _ _ _ hread := htraced.reads hread
  globalReads _ _ hread := htraced.reads hread

/-- Less is asked outside of activations, and after the initialisers. -/
theorem weaken {framed' initial' : Bool} (htraced : state.Traced framed initial)
    (hframed : framed' = true → framed = true) (hinitial : initial' = true → initial = true) :
    state.Traced framed' initial' :=
  { htraced with framed := htraced.framed ∘ hframed, initial := htraced.initial ∘ hinitial }

/-- Only variables and the trace count. -/
theorem of_eq (htraced : before.Traced framed initial) (hstorage : after.storage = before.storage)
    (hrecorder : after.recorder = before.recorder) : after.Traced framed initial := by
  rcases htraced with ⟨hbound, hreads, hrecording, hscopes, hframed, hinitial⟩
  rw [← hstorage] at hbound hscopes hframed hinitial
  rw [← hrecorder] at hbound hreads hrecording
  exact ⟨hbound, hreads, hrecording, hscopes, hframed, hinitial⟩

/-- A write may be noted at any time, and a read if there is such a variable. -/
theorem note (htraced : state.Traced framed initial) (access : Access)
    (hread : access = .read → state.storage.Binds name scope.origin) :
    (state.note access name scope).Traced framed initial where
  bound hbinds := (mem_note htraced.recording).mpr (.inr (htraced.bound hbinds))
  reads hmem := by
    rcases (mem_note htraced.recording).mp hmem with hnew | hold
    · cases hnew
      exact (mem_note htraced.recording).mpr (.inr (htraced.bound (hread rfl)))
    · exact (mem_note htraced.recording).mpr (.inr (htraced.reads hold))
  recording := Recorder.record_ne_off htraced.recording _
  scopes := htraced.scopes
  framed := htraced.framed
  initial := htraced.initial

theorem note_write (htraced : state.Traced framed initial) (name : String) (scope : Scope) :
    (state.note .write name scope).Traced framed initial :=
  htraced.note .write nofun

/-- In the same activations, variables may go, and come if they were written. -/
theorem onStorage (htraced : state.Traced framed initial)
    {change : Storage Value → Storage Value}
    (hbinds : ∀ {name scope}, (change state.storage).Binds name scope →
      state.storage.Binds name scope ∨ ⟨.write, name, scope⟩ ∈ state.recorder.contents)
    (hscopes : (change state.storage).frames.map Frame.scope =
      state.storage.frames.map Frame.scope)
    (hinitialising : (change state.storage).initialising = state.storage.initialising) :
    (state.onStorage change).Traced framed initial where
  bound hbound := (hbinds hbound).elim htraced.bound id
  reads := htraced.reads
  recording := htraced.recording
  scopes := by
    change ∀ scope ∈ (change state.storage).frames.map Frame.scope, _
    rw [hscopes]
    exact htraced.scopes
  framed := by
    change _ → (change state.storage).frames.map Frame.scope ≠ []
    rw [hscopes]
    exact htraced.framed
  initial := hinitialising ▸ htraced.initial

/-- In an activation or an initialiser, a declaration binds what it has noted. -/
theorem declare (htraced : state.Traced framed initial) (hinside : framed = true ∨ initial = true)
    (name : String) (value : Value) :
    ((state.note .write name state.storage.currentScope).onStorage
      (·.declare name value)).Traced framed initial := by
  have hcurrent : state.storage.frames ≠ [] ∨ state.storage.initialising = true := by
    rcases hinside with hframed | hinitial
    · exact .inl fun hnil => htraced.framed hframed (by rw [hnil, List.map_nil])
    · exact .inr (htraced.initial hinitial)
  refine (htraced.note_write name state.storage.currentScope).onStorage ?_
    (state.storage.sameFrames_declare name value).scopes
    (state.storage.initialising_declare name value)
  intro other scope hbinds
  rcases Storage.binds_of_declare hcurrent hbinds with hold | ⟨rfl, rfl⟩
  · exact .inl hold
  · exact .inr ((mem_note htraced.recording).mpr (.inl rfl))

/-- While globals are initialised, so does the declaration of a global. -/
theorem declareGlobal (htraced : state.Traced framed true) (name : String) (value : Value) :
    ((state.onStorage (·.declareGlobal name value)).note .write name
      state.storage.globalScope).Traced framed true := by
  have hscope : state.storage.globalScope = .global true :=
    congrArg Scope.global (htraced.initial rfl)
  rw [hscope]
  -- It makes no difference whether the write is noted before.
  change ((state.note .write name (.global true)).onStorage (·.declareGlobal name value)).Traced _ _
  refine (htraced.note_write name (.global true)).onStorage ?_ rfl rfl
  intro other scope hbinds
  rcases Storage.binds_of_declareGlobal hbinds with hold | ⟨rfl, rfl⟩
  · exact .inl hold
  · exact .inr ((mem_note htraced.recording).mpr (.inl rfl))

theorem assign (htraced : state.Traced framed initial) {value : Value} {storage : Storage Value}
    (hassign : state.storage.assign name value = some (storage, scope)) :
    ({ state with storage }.note .write name scope).Traced framed initial := by
  have hassigned : (state.onStorage fun _ => storage).Traced framed initial :=
    htraced.onStorage (fun hbinds => .inl (Storage.binds_of_assign hassign hbinds))
      (Storage.sameFrames_of_assign hassign).scopes (Storage.initialising_of_assign hassign)
  exact hassigned.note_write name scope

theorem pushBlock (htraced : state.Traced framed initial) :
    (state.onStorage Storage.pushBlock).Traced framed initial :=
  htraced.onStorage (fun hbinds => .inl (Storage.binds_of_pushBlock hbinds))
    (Storage.scopes_onFrame fun _ => rfl) (Storage.initialising_onFrame _ _)

theorem popBlock (htraced : state.Traced framed initial) :
    (state.onStorage Storage.popBlock).Traced framed initial :=
  htraced.onStorage (fun hbinds => .inl (Storage.binds_of_popBlock hbinds))
    (Storage.scopes_onFrame fun _ => rfl) (Storage.initialising_onFrame _ _)

/-- A call leads into an activation. -/
theorem pushFrame (htraced : state.Traced framed initial) (subprogram : String) :
    (state.onStorage (·.pushFrame subprogram)).Traced true initial where
  bound hbinds := htraced.bound (Storage.binds_of_pushFrame hbinds)
  reads := htraced.reads
  recording := htraced.recording
  scopes := List.forall_mem_cons.mpr ⟨rfl, htraced.scopes⟩
  framed _ := nofun
  initial := htraced.initial

/-- The end of a call leads back to the activations from before. -/
theorem popFrame (hbefore : before.Traced framed initial) (hafter : after.Traced true initial)
    (hstack : (before.onStorage (·.pushFrame name)).SameStack after) :
    (after.onStorage Storage.popFrame).Traced framed initial where
  bound hbinds := hafter.bound (Storage.binds_of_popFrame hbinds)
  reads := hafter.reads
  recording := hafter.recording
  scopes := by
    change ∀ scope ∈ after.storage.popFrame.frames.map Frame.scope, _
    rw [Storage.frames_popFrame hstack.frames]
    exact hbefore.scopes
  framed := by
    change _ → after.storage.popFrame.frames.map Frame.scope ≠ []
    rw [Storage.frames_popFrame hstack.frames]
    exact hbefore.framed
  initial := hafter.initial

/-- Initialisers begin, or end. -/
theorem setInitialising (htraced : state.Traced framed initial) (initialising : Bool) :
    (state.onStorage (·.setInitialising initialising)).Traced framed initialising where
  bound hbinds := htraced.bound (Storage.binds_of_setInitialising hbinds)
  reads := htraced.reads
  recording := htraced.recording
  scopes := htraced.scopes
  framed := htraced.framed
  initial := id

end Traced

end State

/-! ## Runs -/

namespace Invariant

/-- Nothing is asked of values, and of states what every step keeps. -/
def traced (framed initial : Bool) : Invariant where
  ofValue := Anything
  ofException := Anything
  ofState := State.Traced framed initial

variable {framed initial : Bool}

theorem traced_lawful (hinside : framed = true ∨ initial = true) :
    (traced framed initial).Lawful where
  toValueLaws := .anything
  lookup htraced hlookup :=
    ⟨trivial, htraced.note .read fun _ => Storage.binds_of_lookup htraced.scopes hlookup⟩
  assign htraced _ hassign := htraced.assign hassign
  declare htraced _ := htraced.declare hinside _ _
  pushBlock htraced := htraced.pushBlock
  popBlock htraced := htraced.popBlock
  pushHandled htraced _ := htraced.of_eq rfl rfl
  popHandled htraced := htraced.of_eq rfl rfl
  handled _ _ := trivial
  warn htraced := htraced.of_eq rfl rfl

theorem traced_opens : (traced framed initial).Opens (State.Traced true initial) where
  enter htraced := htraced.pushFrame _
  leave hbefore hafter hstack := hbefore.popFrame hafter hstack
  outside htraced := htraced.weaken (fun _ => rfl) id
  print htraced := htraced.of_eq rfl rfl

theorem traced_carries : (traced framed initial).Carries (State.Traced true initial) :=
  ⟨traced_lawful (.inl rfl), traced_opens, traced_opens⟩

theorem traced_staged : (traced false false).Staged (State.Traced false true)
    (State.Traced true true) (State.Traced true false) where
  initialises :=
    { lawful := traced_lawful (.inr rfl)
      start := fun htraced => htraced.setInitialising true
      declareGlobal := fun htraced _ => htraced.declareGlobal _ _
      stop := fun htraced => htraced.setInitialising false
      outside := fun htraced => htraced.weaken id nofun }
  initialCalls := traced_carries
  calls := traced_carries

theorem traced_of_holds {moment : Moment} (hholds : (traced framed initial).Holds moment) :
    moment.state.Traced framed initial := by
  cases moment with
  | passing state => exact hholds
  | produced value state | propagating exc state => exact hholds.2

end Invariant

namespace Session

/-- In runs that record accesses, at every moment and in the end, also if a run
fails, the trace contains a write of every variable that there is: in the scope of
its activation, or in global storage while it was initialised.  So it does of
every variable that it contains a read of. -/
theorem written_of_meets (subprograms : Table) (unroll bound : Nat) (programs : List Program) :
    (∀ moment, (start subprograms unroll true).Meets bound programs moment →
      moment.state.Written) ∧
    ((start subprograms unroll true).runAll bound programs).2.state.Written := by
  have hstart : (Invariant.traced false false).ofState (start subprograms unroll true).state :=
    State.Traced.start
  obtain ⟨hholds, hend⟩ := holds_of_meets Invariant.traced_staged hstart
  constructor
  · intro moment hmoment
    exact (Invariant.traced_of_holds (hholds moment hmoment)).written
  · exact hend.written

/-- A global whose value a local variable takes before an assertion about it
fails. -/
def asserting : Program :=
  ⟨[.global ⟨"limit", none, some (.literal (.int 1))⟩,
    .subprogram (.ofFunction entryPoint [] .integer (.block
      [.declare "local" none (some (.var "limit")),
        .assert (.binary .eq (.var "local") (.literal (.int 2)))]))]⟩

/-- The failed run leaves its activation behind, with a variable that was written
and read there. -/
theorem written_asserting :
    ∃ moment, (start asserting.table 0 true).Meets 1 [asserting] moment ∧ moment.state.Written ∧
      moment.state.storage.depth = 1 ∧
      ⟨.read, "local", .activation entryPoint 1⟩ ∈ moment.state.recorder.contents := by
  have hlast : (start asserting.table 0 true).Meets 1 [asserting] (Moments.ending
      (runGlobalsAndMain (Eval.callWithin (Named.get? (asserting.table.addAll asserting)) 0 1)
        asserting.globals (.start true))) := .inl (.inr (.inr rfl))
  exact ⟨_, hlast, (written_of_meets asserting.table 0 1 [asserting]).1 _ hlast, rfl, by decide⟩

end Session

end ArchSpec
