import Mathlib.Data.List.Induction
import ArchSpec.Proofs.Traces.Order

/-!
# Traces are sets

A recorder may be told to record events and to forget everything.  What it then
contains is strictly increasing in the order of events, and it is what was recorded
since it forgot the last time.  There is only one such list, so the order of
recording and repetitions leave no mark.
-/

namespace ArchSpec

open Std

/-! ## The order in words -/

/-- Global storage comes before activations, and while it is initialised it comes
after the rest of it; activations go by subprogram and then by number. -/
inductive Scope.Before : Scope → Scope → Prop
  | initialising : Before (.global false) (.global true)
  | global (initialising : Bool) (subprogram : String) (number : UInt32) :
      Before (.global initialising) (.activation subprogram number)
  | subprogram {left right : String} (horder : left < right) (number number' : UInt32) :
      Before (.activation left number) (.activation right number')
  | number (subprogram : String) {left right : UInt32} (horder : left < right) :
      Before (.activation subprogram left) (.activation subprogram right)

/-- Reads come before writes; accesses of one kind go by identifier and then by
scope. -/
inductive Event.Before : Event → Event → Prop
  | access (left right : String) (scope scope' : Scope) :
      Before ⟨.read, left, scope⟩ ⟨.write, right, scope'⟩
  | identifier (access : Access) {left right : String} (horder : left < right)
      (scope scope' : Scope) : Before ⟨access, left, scope⟩ ⟨access, right, scope'⟩
  | scope (access : Access) (identifier : String) {left right : Scope}
      (horder : left.Before right) : Before ⟨access, identifier, left⟩ ⟨access, identifier, right⟩

theorem Access.compare_eq_lt_iff {left right : Access} :
    left.compare right = .lt ↔ left = .read ∧ right = .write := by
  cases left <;> cases right <;> decide

theorem Scope.compare_eq_lt_iff {left right : Scope} :
    left.compare right = .lt ↔ left.Before right := by
  constructor
  · intro horder
    match left, right with
    | .global false, .global true => exact .initialising
    | .global false, .global false | .global true, .global false | .global true, .global true =>
        nomatch horder
    | .global initialising, .activation name number => exact .global initialising name number
    | .activation .., .global _ => nomatch horder
    | .activation name number, .activation name' number' =>
        rcases Ordering.then_eq_lt.mp horder with hname | ⟨hsame, hnumber⟩
        · exact .subprogram (compareOfLessAndEq_eq_lt.mp hname) number number'
        · obtain rfl := Std.compare_eq_iff_eq.mp hsame
          exact .number name (Std.compare_eq_lt.mp hnumber)
  · intro hbefore
    cases hbefore with
    | initialising | global => rfl
    | subprogram hname number number' =>
        exact Ordering.then_eq_lt.mpr (.inl (compareOfLessAndEq_eq_lt.mpr hname))
    | number name hnumber =>
        exact Ordering.then_eq_lt.mpr (.inr ⟨ReflCmp.compare_self, Std.compare_eq_lt.mpr hnumber⟩)

theorem Event.compare_eq_lt_iff {left right : Event} :
    left.compare right = .lt ↔ left.Before right := by
  constructor
  · intro horder
    rcases left with ⟨access, name, scope⟩
    rcases right with ⟨access', name', scope'⟩
    rcases Ordering.then_eq_lt.mp horder with haccess | ⟨haccess, hrest⟩
    · obtain ⟨rfl, rfl⟩ := Access.compare_eq_lt_iff.mp haccess
      exact .access name name' scope scope'
    · obtain rfl := Access.compare_eq_iff.mp haccess
      rcases Ordering.then_eq_lt.mp hrest with hname | ⟨hname, hscope⟩
      · exact .identifier access (compareOfLessAndEq_eq_lt.mp hname) scope scope'
      · obtain rfl := Std.compare_eq_iff_eq.mp hname
        exact .scope access name (Scope.compare_eq_lt_iff.mp hscope)
  · intro hbefore
    cases hbefore with
    | access name name' scope scope' => rfl
    | identifier access hname scope scope' =>
        exact Ordering.then_eq_lt.mpr (.inr ⟨ReflCmp.compare_self,
          Ordering.then_eq_lt.mpr (.inl (compareOfLessAndEq_eq_lt.mpr hname))⟩)
    | scope access name hscope =>
        exact Ordering.then_eq_lt.mpr (.inr ⟨ReflCmp.compare_self, Ordering.then_eq_lt.mpr
          (.inr ⟨ReflCmp.compare_self, Scope.compare_eq_lt_iff.mpr hscope⟩)⟩)

namespace Event.Before

variable {left middle right : Event}

theorem trans (hleft : left.Before middle) (hright : middle.Before right) : left.Before right :=
  compare_eq_lt_iff.mp
    (TransCmp.lt_trans (compare_eq_lt_iff.mpr hleft) (compare_eq_lt_iff.mpr hright))

theorem asymm (hbefore : left.Before right) : ¬right.Before left := fun hafter =>
  OrientedCmp.not_lt_of_lt (compare_eq_lt_iff.mpr hbefore) (compare_eq_lt_iff.mpr hafter)

theorem ne (hbefore : left.Before right) : left ≠ right := by
  rintro rfl
  exact hbefore.asymm hbefore

end Event.Before

/-! ## Increasing lists of events -/

namespace Trace

variable {left right events : List Event}

theorem increasing_insert (hevents : events.Pairwise Event.Before) (event : Event) :
    (insert event events).Pairwise Event.Before := by
  induction events with
  | nil => exact List.pairwise_singleton Event.Before event
  | cons first rest ih =>
      obtain ⟨hfirst, hrest⟩ := List.pairwise_cons.mp hevents
      rw [insert]
      cases horder : event.compare first with
      | lt =>
          have hbefore : event.Before first := Event.compare_eq_lt_iff.mp horder
          refine List.pairwise_cons.mpr ⟨List.forall_mem_cons.mpr ⟨hbefore, ?_⟩, hevents⟩
          exact fun other hother => hbefore.trans (hfirst other hother)
      | eq => exact hevents
      | gt =>
          have hbefore : first.Before event :=
            Event.compare_eq_lt_iff.mp (OrientedCmp.lt_of_gt horder)
          refine List.pairwise_cons.mpr ⟨fun other hother => ?_, ih hrest⟩
          rcases mem_insert.mp hother with rfl | hold
          · exact hbefore
          · exact hfirst other hold

/-- A set of events is contained in only one increasing list. -/
theorem eq_of_increasing (hleft : left.Pairwise Event.Before) (hright : right.Pairwise Event.Before)
    (hmem : ∀ event, event ∈ left ↔ event ∈ right) : left = right := by
  have hnodup {events : List Event} (hevents : events.Pairwise Event.Before) : events.Nodup :=
    hevents.imp fun hbefore => hbefore.ne
  have hperm : left.Perm right :=
    (List.perm_ext_iff_of_nodup (hnodup hleft) (hnodup hright)).mpr hmem
  exact hperm.eq_of_pairwise (fun _ _ _ _ hbefore hafter => (hbefore.asymm hafter).elim)
    hleft hright

end Trace

/-! ## Recording and forgetting -/

namespace Recorder

inductive Command where
  | record (event : Event)
  | reset

def perform (recorder : Recorder) : Command → Recorder
  | .record event => recorder.record event
  | .reset => recorder.reset

def performAll (recorder : Recorder) (commands : List Command) : Recorder :=
  commands.foldl perform recorder

theorem performAll_snoc (recorder : Recorder) (commands : List Command) (command : Command) :
    recorder.performAll (commands ++ [command]) = (recorder.performAll commands).perform command :=
  List.foldl_append

/-- The event was recorded, and nothing was forgotten from then on. -/
def Kept (commands : List Command) (event : Event) : Prop :=
  ∃ earlier later, commands = earlier ++ .record event :: later ∧ Command.reset ∉ later

theorem not_kept_nil (event : Event) : ¬Kept [] event := by
  rintro ⟨earlier, later, hcommands, _⟩
  simp at hcommands

/-- The last command adds what it records, and a reset takes everything away. -/
theorem kept_snoc_iff {commands : List Command} {command : Command} {event : Event} :
    Kept (commands ++ [command]) event ↔
      command = .record event ∨ command ≠ .reset ∧ Kept commands event := by
  constructor
  · rintro ⟨earlier, later, hcommands, hreset⟩
    rcases List.eq_nil_or_concat' later with rfl | ⟨later, last, rfl⟩
    · obtain ⟨_, hlast⟩ := List.append_inj' hcommands rfl
      exact .inl (List.singleton_inj.mp hlast)
    · rw [← List.cons_append, ← List.append_assoc] at hcommands
      obtain ⟨rfl, hlast⟩ := List.append_inj' hcommands rfl
      obtain rfl := List.singleton_inj.mp hlast
      simp only [List.mem_append, List.mem_singleton, not_or] at hreset
      exact .inr ⟨Ne.symm hreset.2, earlier, later, rfl, hreset.1⟩
  · rintro (rfl | ⟨hcommand, earlier, later, rfl, hreset⟩)
    · exact ⟨commands, [], rfl, List.not_mem_nil⟩
    · refine ⟨earlier, later ++ [command], by rw [List.append_assoc, List.cons_append], ?_⟩
      simp only [List.mem_append, List.mem_singleton, not_or]
      exact ⟨hreset, Ne.symm hcommand⟩

/-- A recorder that is on contains a set of events, in their order. -/
structure Lists (recorder : Recorder) (set : Event → Prop) : Prop where
  recording : recorder ≠ .off
  increasing : recorder.contents.Pairwise Event.Before
  mem_iff : ∀ event, event ∈ recorder.contents ↔ set event

namespace Lists

variable {recorder recorder' : Recorder} {set set' : Event → Prop}

theorem record (hlists : recorder.Lists set) (event : Event) :
    (recorder.record event).Lists fun other => other = event ∨ set other where
  recording := record_ne_off hlists.recording event
  increasing := by
    cases recorder with
    | off => exact absurd rfl hlists.recording
    | on events => exact Trace.increasing_insert hlists.increasing event
  mem_iff other := by rw [mem_contents_record hlists.recording, hlists.mem_iff]

theorem reset (hlists : recorder.Lists set) : recorder.reset.Lists fun _ => False where
  recording := by
    cases recorder with
    | off => exact absurd rfl hlists.recording
    | on events => exact nofun
  increasing := by cases recorder <;> exact .nil
  mem_iff event := by cases recorder <;> simp [Recorder.reset, contents]

theorem congr (hlists : recorder.Lists set) (hset : ∀ event, set event ↔ set' event) :
    recorder.Lists set' :=
  ⟨hlists.recording, hlists.increasing, fun event => (hlists.mem_iff event).trans (hset event)⟩

/-- Two recorders with the same events have the same contents. -/
theorem contents_eq (hlists : recorder.Lists set) (hlists' : recorder'.Lists set) :
    recorder.contents = recorder'.contents :=
  Trace.eq_of_increasing hlists.increasing hlists'.increasing fun event =>
    (hlists.mem_iff event).trans (hlists'.mem_iff event).symm

end Lists

/-- From the start, a recorder contains what it has not been told to forget. -/
theorem lists_performAll (commands : List Command) :
    ((start true).performAll commands).Lists (Kept commands) := by
  induction commands using List.reverseRecOn with
  | nil => exact ⟨nofun, .nil, fun event => iff_of_false List.not_mem_nil (not_kept_nil event)⟩
  | append_singleton commands command ih =>
      rw [performAll_snoc]
      cases command with
      | record event =>
          exact (ih.record event).congr fun other => by simp [kept_snoc_iff, eq_comm]
      | reset => exact ih.reset.congr fun event => by simp [kept_snoc_iff]

/-- After any commands the contents are strictly increasing and consist of the events
that were recorded since the last reset.  So they are the same, and as many, after all
sequences of commands that recorded the same events since then. -/
theorem contents_canonical (commands : List Command) :
    let contents := ((start true).performAll commands).contents
    contents.Pairwise Event.Before ∧
    (∀ event, event ∈ contents ↔ Kept commands event) ∧
    ∀ commands' : List Command, (∀ event, Kept commands event ↔ Kept commands' event) →
      ((start true).performAll commands').contents = contents ∧
        ((start true).performAll commands').contents.length = contents.length := by
  intro contents
  have hlists := lists_performAll commands
  refine ⟨hlists.increasing, hlists.mem_iff, fun commands' hsame => ?_⟩
  have hcontents : ((start true).performAll commands').contents = contents :=
    (lists_performAll commands').contents_eq (hlists.congr hsame)
  exact ⟨hcontents, congrArg List.length hcontents⟩

/-- Two events are recorded in either order, and also twice and after a third one that
is forgotten. -/
theorem contents_canonical_swapped :
    let opened : Event := ⟨.write, "opened", .global true⟩
    let read : Event := ⟨.read, "x", .activation "f" 2⟩
    let write : Event := ⟨.write, "x", .activation "f" 2⟩
    let commands := [.record opened, .reset, .record write, .record read, .record write]
    let commands' := [Command.record read, .record write]
    (∀ event, Kept commands event ↔ Kept commands' event) ∧
      ((start true).performAll commands').contents =
        ((start true).performAll commands).contents := by
  intro opened read write commands commands'
  have hsame : ∀ event, Kept commands event ↔ Kept commands' event := by
    intro event
    rw [← (lists_performAll commands).mem_iff, ← (lists_performAll commands').mem_iff]
    have hcommands : ((start true).performAll commands).contents = [read, write] := by decide
    have hcommands' : ((start true).performAll commands').contents = [read, write] := by decide
    rw [hcommands, hcommands']
  exact ⟨hsame, ((contents_canonical commands).2.2 commands' hsame).1⟩

end Recorder

end ArchSpec
