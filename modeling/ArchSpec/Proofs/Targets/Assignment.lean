import ArchSpec.Proofs.CallFree
import ArchSpec.Proofs.Targets.Path

/-!
# Assignment is a lens

If the indices of a target make no calls and do not read its root variable, then
however often they are evaluated, they denote one path into the value of the root.
To assign puts a value at the end of that path, to read gets the value there, and
an assignment that does not end normally changes no variable.
-/

namespace ArchSpec

open State

/-- A path leads from the value of a variable to a value. -/
def Path.Leads (root : String) (state : State) (path : Path) (value : Value) : Prop :=
  ∃ old scope, state.storage.lookup root = some (old, scope) ∧ path.get? old = some value

/-- The step with which a target reads a part of what it has read before. -/
def Part.read : Part → Value → Eval Value
  | field name, whole => Effect.lift (whole.getField name)
  | item index, whole => Effect.lift (whole.getItem index)
  | slice places, whole => Effect.liftSized (Slice.read places whole)

theorem Part.read_eq_done_iff {part : Part} {whole value : Value} {state : State} :
    (part.read whole state).1 = .done value ↔ part.get? whole = some value :=
  match part with
  | field _ | item _ => Effect.lift_eq_done_iff.trans toOption_eq_some_iff.symm
  | slice _ => Effect.liftSized_eq_done_iff

theorem Path.leads_cons_iff {root : String} {state : State} {part : Part} {path : Path}
    {value : Value} : Leads root state (part :: path) value ↔
      ∃ whole, Leads root state path whole ∧ part.get? whole = some value := by
  constructor
  · rintro ⟨old, scope, hlookup, hget⟩
    obtain ⟨whole, hwhole, hpart⟩ := Option.bind_eq_some_iff.mp hget
    exact ⟨whole, ⟨old, scope, hlookup, hwhole⟩, hpart⟩
  · rintro ⟨whole, ⟨old, scope, hlookup, hwhole⟩, hpart⟩
    exact ⟨old, scope, hlookup, Option.bind_eq_some_iff.mpr ⟨whole, hwhole, hpart⟩⟩

namespace Target

/-- The path of a target, for which each of its index lists is evaluated once. -/
def path (calls : Calls) : Target → Eval Path
  | .discard => return []
  | .var _ => return []
  | .field whole name => do
      let outer ← whole.path calls
      return .field name :: outer
  | .item whole index => do
      let outer ← whole.path calls
      return .item index.toNat :: outer
  | .slice whole slices => do
      let places ← SliceExpr.evalAll calls slices
      let outer ← whole.path calls
      return .slice places :: outer

variable (calls : Calls) {whole : Target} {slices : List SliceExpr} {root : String}
variable {value : Value} {before after : State}

theorem CallFree.head (hfree : (slice whole slices).CallFree) :
    SliceExpr.allCallFree slices = true :=
  hfree slices (List.mem_cons_self ..)

theorem CallFree.tail (hfree : (slice whole slices).CallFree) : whole.CallFree :=
  fun other hother => hfree other (List.mem_cons_of_mem _ hother)

/-! ## Reading -/

/-- A path is the same in states that agree on the variables of the indices. -/
theorem path_agreeing {names : List String} : ∀ target : Target, target.CallFree →
    (∀ name ∈ target.indexVariables, name ∈ names) →
    EvalRel.agreeing names Path Anything (target.path calls) (target.path calls)
  | .discard, _, _ => EvalRel.agreeing_pureRel.ret trivial
  | .var _, _, _ => EvalRel.agreeing_pureRel.ret trivial
  | .field whole _, hfree, hnames =>
      EvalRel.agreeing_pureRel.bind (path_agreeing whole hfree hnames) fun _ _ =>
        EvalRel.agreeing_pureRel.ret trivial
  | .item whole _, hfree, hnames =>
      EvalRel.agreeing_pureRel.bind (path_agreeing whole hfree hnames) fun _ _ =>
        EvalRel.agreeing_pureRel.ret trivial
  | .slice whole slices, hfree, hnames => by
      have hvariables := List.forall_mem_append.mp hnames
      exact EvalRel.agreeing_pureRel.bind
        (SliceExpr.evalAll_agreeing calls hfree.head hvariables.1) fun _ _ =>
          EvalRel.agreeing_pureRel.bind (path_agreeing whole hfree.tail hvariables.2) fun _ _ =>
            EvalRel.agreeing_pureRel.ret trivial

/-- In particular it is the same after quiet steps. -/
theorem path_of_quiet {target : Target} (hfree : target.CallFree) (hquiet : before.Quiet after) :
    (target.path calls after).1 = (target.path calls before).1 :=
  (path_agreeing calls target hfree (fun _ hname => hname) after before
    (.of_storage_eq hquiet.storage_eq)).outcome

theorem read_quiet : ∀ target : Target, target.CallFree → ∀ state : State,
    state.Quiet (target.read calls state).2
  | .discard, _, state => .refl state
  | .var name, _, state => .readVariable name state
  | .field whole _, hfree, state =>
      (read_quiet whole hfree state).bind fun _ => .lift _
  | .item whole _, hfree, state =>
      (read_quiet whole hfree state).bind fun _ => .lift _
  | .slice whole _, hfree, state =>
      (SliceExpr.evalAll_quiet calls hfree.head state).bind fun _ between =>
        (read_quiet whole hfree.tail between).bind fun _ => .liftSized _

/-- To read a part of a place is to follow the path of the place and then the
part. -/
theorem read_part_eq_done_iff (part : Part) (value : Value) {state : State}
    (hwhole : ∀ container, (whole.read calls state).1 = .done container ↔
      ∃ outer, (whole.path calls state).1 = .done outer ∧ outer.Leads root state container) :
    ((whole.read calls >>= part.read) state).1 = .done value ↔
      ∃ path : Path,
        ((whole.path calls >>= fun outer => pure (part :: outer)) state).1 = .done path ∧
        path.Leads root state value := by
  constructor
  · intro hread
    obtain ⟨container, hcontainer, hget⟩ := Effect.bind_eq_done_iff.mp hread
    obtain ⟨outer, houter, hleads⟩ := (hwhole container).mp hcontainer
    refine ⟨part :: outer, Effect.bind_eq_done_iff.mpr ⟨outer, houter, rfl⟩, ?_⟩
    exact Path.leads_cons_iff.mpr ⟨container, hleads, Part.read_eq_done_iff.mp hget⟩
  · rintro ⟨path, hpath, hleads⟩
    obtain ⟨outer, houter, hcons⟩ := Effect.bind_eq_done_iff.mp hpath
    cases hcons
    obtain ⟨container, houterLeads, hget⟩ := Path.leads_cons_iff.mp hleads
    exact Effect.bind_eq_done_iff.mpr ⟨container,
      (hwhole container).mpr ⟨outer, houter, houterLeads⟩, Part.read_eq_done_iff.mpr hget⟩

theorem read_var_eq_done_iff (value : Value) (state : State) :
    ((var root).read calls state).1 = .done value ↔
      ∃ path, ((var root).path calls state).1 = .done path ∧ path.Leads root state value := by
  rw [read, Eval.readVariable]
  constructor
  · intro hread
    cases hlookup : state.storage.lookup root with
    | none => rw [hlookup] at hread; cases hread
    | some found =>
        rw [hlookup] at hread
        cases hread
        exact ⟨[], rfl, found.1, found.2, hlookup, rfl⟩
  · rintro ⟨path, hpath, old, scope, hlookup, hget⟩
    cases hpath
    cases hget
    rw [hlookup]

theorem read_slice_eq_done_iff (hfree : (slice whole slices).CallFree)
    (hwhole : ∀ (container : Value) (state : State), (whole.read calls state).1 = .done container ↔
      ∃ path, (whole.path calls state).1 = .done path ∧ path.Leads root state container)
    (value : Value) (state : State) : ((slice whole slices).read calls state).1 = .done value ↔
      ∃ path, ((slice whole slices).path calls state).1 = .done path ∧
        path.Leads root state value := by
  have hquiet := SliceExpr.evalAll_quiet calls hfree.head state
  have hpart := fun places => read_part_eq_done_iff calls (.slice places) value fun container =>
    hwhole container (SliceExpr.evalAll calls slices state).2
  simp only [Path.Leads, hquiet.storage_eq] at hpart
  rw [read, path]
  simp only [Path.Leads]
  constructor
  · intro hread
    obtain ⟨places, hplaces, hread⟩ := Effect.bind_eq_done_iff.mp hread
    obtain ⟨path, hpath, hleads⟩ := (hpart places).mp hread
    exact ⟨path, Effect.bind_eq_done_iff.mpr ⟨places, hplaces, hpath⟩, hleads⟩
  · rintro ⟨path, hpath, hleads⟩
    obtain ⟨places, hplaces, hpath⟩ := Effect.bind_eq_done_iff.mp hpath
    exact Effect.bind_eq_done_iff.mpr ⟨places, hplaces, (hpart places).mpr ⟨path, hpath, hleads⟩⟩

/-- To read a target is to follow its path from the value of the root. -/
theorem read_eq_done_iff : ∀ target : Target, target.CallFree → target.root? = some root →
    ∀ (value : Value) (state : State), (target.read calls state).1 = .done value ↔
      ∃ path, (target.path calls state).1 = .done path ∧ path.Leads root state value
  | .discard, _, hroot, _, _ => nomatch hroot
  | .var name, _, hroot, value, state => by
      cases hroot
      exact read_var_eq_done_iff calls value state
  | .field whole name, hfree, hroot, value, state =>
      read_part_eq_done_iff calls (.field name) value fun container =>
        read_eq_done_iff whole hfree hroot container state
  | .item whole index, hfree, hroot, value, state =>
      read_part_eq_done_iff calls (.item index.toNat) value fun container =>
        read_eq_done_iff whole hfree hroot container state
  | .slice whole _, hfree, hroot, value, state =>
      read_slice_eq_done_iff calls hfree (read_eq_done_iff whole hfree.tail hroot) value state

/-! ## Assigning -/

/-- Unless a computation ends with a value, and with it in a certain state, it is
quiet. -/
structure QuietUnless (Done : State → Prop) (before : State) (run : Outcome Unit × State) :
    Prop where
  done : run.1 = .done () → Done run.2
  undone : run.1 ≠ .done () → before.Quiet run.2

theorem QuietUnless.bind {α : Type} {Done : State → Prop} {first : Eval α} {next : α → Eval Unit}
    (hfirst : before.Quiet (first before).2)
    (hnext : ∀ value, (first before).1 = .done value →
      QuietUnless Done (first before).2 (next value (first before).2)) :
    QuietUnless Done before ((first >>= next) before) := by
  change QuietUnless Done before (Effect.bind first next before)
  rw [Effect.bind]
  rcases hrun : first before with ⟨outcome, between⟩
  rw [hrun] at hfirst hnext
  cases outcome with
  | done value =>
      have hrest := hnext value rfl
      exact ⟨hrest.done, fun hundone => hfirst.trans (hrest.undone hundone)⟩
  | thrown | failed | overflowed | exhausted => exact ⟨by simp, fun _ => hfirst⟩

/-- The value of the root was overwritten after a value was put at the end of a
path in it, and otherwise only accesses were recorded. -/
def Overwrites (root : String) (path : Path) (value : Value) (before after : State) : Prop :=
  ∃ old new scope storage recorder, before.storage.lookup root = some (old, scope) ∧
    path.put? value old = some new ∧ before.storage.assign root new = some (storage, scope) ∧
    after = { before with storage, recorder }

/-- What happens after quiet steps happens altogether. -/
theorem Overwrites.of_quiet {path : Path} {between : State} (hquiet : before.Quiet between)
    (hrest : Overwrites root path value between after) :
    Overwrites root path value before after := by
  obtain ⟨_, rfl⟩ := hquiet
  exact hrest

/-- To assign a target either overwrites the root along the path of the target or
is quiet. -/
def Rebuilds (target : Target) (root : String) (value : Value) (before : State) : Prop :=
  QuietUnless (fun after => ∃ path, (target.path calls before).1 = .done path ∧
    Overwrites root path value before after) before (target.assign calls value before)

/-- To assign a part of a place, the place is read, rebuilt and assigned. -/
theorem rebuilds_part (part : Part) (value : Value) (before : State) (hfree : whole.CallFree)
    (hroot : whole.root? = some root)
    (hwhole : ∀ (container : Value) (between : State),
      Rebuilds calls whole root container between) :
    QuietUnless (fun after => ∃ path : Path,
        ((whole.path calls >>= fun outer => pure (part :: outer)) before).1 = .done path ∧
          Overwrites root path value before after) before
      ((do
        let container ← whole.read calls
        let updated ← Effect.lift (part.put value container)
        whole.assign calls updated : Eval Unit) before) := by
  have hquiet := read_quiet calls whole hfree before
  apply QuietUnless.bind hquiet
  intro container hcontainer
  obtain ⟨outer, houter, old, scope, hlookup, hget⟩ :=
    (read_eq_done_iff calls whole hfree hroot container before).mp hcontainer
  apply QuietUnless.bind (Quiet.lift _ _)
  intro updated hupdated
  have hput := Effect.lift_eq_done_iff.mp hupdated
  have hquietAll := hquiet.trans (Quiet.lift (part.put value container) _)
  have hrest := hwhole updated
    (Effect.lift (part.put value container) (whole.read calls before).2).2
  constructor
  · intro hdone
    obtain ⟨again, hagain, hoverwrites⟩ := hrest.done hdone
    rw [path_of_quiet calls hfree hquietAll, houter] at hagain
    cases hagain
    refine ⟨part :: outer, Effect.bind_eq_done_iff.mpr ⟨outer, houter, rfl⟩, ?_⟩
    obtain ⟨_, new, _, storage, recorder, hlookup', hnew, hassign, hafter⟩ :=
      hoverwrites.of_quiet hquietAll
    rw [hlookup] at hlookup'
    cases hlookup'
    refine ⟨old, new, scope, storage, recorder, hlookup, ?_, hassign, hafter⟩
    exact Path.put?_cons_eq_some_iff.mpr ⟨container, hget, updated, hput, hnew⟩
  · exact hrest.undone

theorem rebuilds_var (value : Value) (state : State) :
    Rebuilds calls (var root) root value state := by
  rw [Rebuilds, assign, Eval.writeVariable]
  cases hassign : state.storage.assign root value with
  | none => exact ⟨by simp, fun _ => .refl state⟩
  | some result =>
      obtain ⟨storage, scope⟩ := result
      obtain ⟨old, hlookup, _⟩ := Storage.rebound_of_assign hassign
      refine ⟨fun _ => ⟨[], rfl, old, value, scope, storage, _, hlookup, rfl, hassign, rfl⟩, ?_⟩
      intro hundone
      exact (hundone rfl).elim

theorem rebuilds_slice (value : Value) (state : State) (hfree : (slice whole slices).CallFree)
    (hroot : whole.root? = some root)
    (hwhole : ∀ (container : Value) (between : State),
      Rebuilds calls whole root container between) :
    Rebuilds calls (slice whole slices) root value state := by
  have hquiet := SliceExpr.evalAll_quiet calls hfree.head state
  apply QuietUnless.bind hquiet
  intro places hplaces
  have hpart := rebuilds_part calls (.slice places) value (SliceExpr.evalAll calls slices state).2
    hfree.tail hroot hwhole
  refine ⟨fun hdone => ?_, hpart.undone⟩
  obtain ⟨path, hpath, hoverwrites⟩ := hpart.done hdone
  exact ⟨path, Effect.bind_eq_done_iff.mpr ⟨places, hplaces, hpath⟩, hoverwrites.of_quiet hquiet⟩

theorem rebuilds : ∀ target : Target, target.CallFree → target.root? = some root →
    ∀ (value : Value) (state : State), Rebuilds calls target root value state
  | .discard, _, hroot, _, _ => nomatch hroot
  | .var name, _, hroot, value, state => by
      cases hroot
      exact rebuilds_var calls value state
  | .field whole name, hfree, hroot, value, state =>
      rebuilds_part calls (.field name) value state hfree hroot (rebuilds whole hfree hroot)
  | .item whole index, hfree, hroot, value, state =>
      rebuilds_part calls (.item index.toNat) value state hfree hroot (rebuilds whole hfree hroot)
  | .slice whole _, hfree, hroot, value, state =>
      rebuilds_slice calls value state hfree hroot (rebuilds whole hfree.tail hroot)

/-! ## The lens -/

/-- Indices that do not read the root have the same path after an assignment. -/
theorem path_of_overwrites {target : Target} {path steps : Path} (hfree : target.CallFree)
    (havoids : root ∉ target.indexVariables)
    (hoverwrites : Overwrites root steps value before after)
    (hpath : (target.path calls before).1 = .done path) :
    (target.path calls after).1 = .done path := by
  obtain ⟨old, new, scope, storage, recorder, _, _, hassign, rfl⟩ := hoverwrites
  have hagree : AgreeOn target.indexVariables before { before with storage, recorder } := by
    intro name hname
    have hother : root ≠ name := fun hsame => havoids (hsame ▸ hname)
    rw [Storage.lookup_of_assign hassign, if_neg hother]
  rw [← hpath]
  exact (path_agreeing calls target hfree (fun _ hname => hname) before _ hagree).outcome.symm

/-- Assignment is a lens.  Let the indices of a target make no calls and not read
the root variable, and let no two slices of one list share a bit.  If an
assignment ends normally, then reading the target gives the value that was
assigned, which is a vector of exactly the length of the slices if the target is
a slice; the value of the root changed in the scope where it was found, and only
along the path of the target; and nothing else changed.  Otherwise no variable
changed. -/
theorem assign_lens (target : Target) (hroot : target.root? = some root) (hfree : target.CallFree)
    (havoids : root ∉ target.indexVariables) (value : Value) (before : State)
    (hapart : ∀ path, (target.path calls before).1 = .done path → ∀ part ∈ path, part.Apart)
    {outcome : Outcome Unit} (hrun : target.assign calls value before = (outcome, after)) :
    (outcome = .done () → ∃ path held old new scope,
      (target.path calls before).1 = .done path ∧
      path.fit value = .ok held ∧ (target.read calls after).1 = .done held ∧
      before.storage.lookup root = some (old, scope) ∧
      before.storage.Rebound root old new after.storage scope ∧ path.Kept old new ∧
      State.Quiet { before with storage := after.storage } after) ∧
    (outcome ≠ .done () → before.Quiet after) := by
  have hrebuilds := rebuilds calls target hfree hroot value before
  rw [Rebuilds, hrun] at hrebuilds
  refine ⟨fun hdone => ?_, hrebuilds.undone⟩
  obtain ⟨path, hpath, hoverwrites⟩ := hrebuilds.done hdone
  have hpathAfter := path_of_overwrites calls hfree havoids hoverwrites hpath
  obtain ⟨old, new, scope, storage, recorder, hlookup, hput, hassign, rfl⟩ := hoverwrites
  obtain ⟨held, hheld, hget⟩ := Path.get?_of_put? hput (hapart path hpath)
  obtain ⟨_, hfound, hrebound⟩ := Storage.rebound_of_assign hassign
  rw [hlookup] at hfound
  cases hfound
  have hlookupAfter : storage.lookup root = some (new, scope) := by
    rw [Storage.lookup_of_assign hassign, if_pos rfl]
  have hread : (target.read calls { before with storage, recorder }).1 = .done held :=
    (read_eq_done_iff calls target hfree hroot held _).mpr
      ⟨path, hpathAfter, new, scope, hlookupAfter, hget⟩
  exact ⟨path, held, old, new, scope, hpath, hheld, hread, hlookup, hrebound,
    Path.kept_of_put? hput (hapart path hpath), recorder, rfl⟩

/-- The outer two of four bits in a field; a variable says where the four start. -/
def nested : Target :=
  .slice (.slice (.field (.var "reg") "flags") [.length (.var "start") (.literal (.int 4))])
    [.single (.literal (.int 3)), .single (.literal (.int 0))]

end Target

/-- A record in one variable and a position in another. -/
def State.register : State :=
  (State.start false).onStorage fun storage =>
    (storage.declareGlobal "reg"
      (.record [("flags", .bits ⟨8, 0⟩), ("mode", .int 1)])).declareGlobal "start" (.int 2)

namespace Target

/-- Both bits are set by the integer 3, and read as a vector of two bits. -/
theorem assign_lens_nested : ∃ after,
    nested.assign (fun _ _ _ => Effect.exhaust) (.int 3) .register = (.done (), after) ∧
      (nested.read (fun _ _ _ => Effect.exhaust) after).1 = .done (.bits ⟨2, 3⟩) := by
  refine ⟨_, rfl, ?_⟩
  have hroot : nested.root? = some "reg" := rfl
  have hlens := assign_lens (fun _ _ _ => Effect.exhaust) nested hroot (by decide) (by decide)
    (.int 3) .register ?_ rfl
  · obtain ⟨path, held, _, _, _, hpath, hheld, hread, _⟩ := hlens.1 rfl
    cases hpath
    cases hheld
    exact hread
  · intro path hpath
    cases hpath
    decide

end Target

end ArchSpec
