import ArchSpec.Trace.Event

/-!
# What a trace contains

The order of events takes only equal events for equal, so to record an event
adds it to the contents of a trace and takes nothing away.
-/

namespace ArchSpec

theorem Access.compare_eq_iff {left right : Access} : left.compare right = .eq ↔ left = right := by
  cases left <;> cases right <;> decide

theorem Scope.compare_eq_iff {left right : Scope} : left.compare right = .eq ↔ left = right := by
  cases left <;> cases right <;> simp [compare, Ordering.then_eq_eq]

theorem Event.compare_eq_iff {left right : Event} : left.compare right = .eq ↔ left = right := by
  rcases left with ⟨access, name, scope⟩
  rcases right with ⟨access', name', scope'⟩
  simp only [compare, Ordering.then_eq_eq, Access.compare_eq_iff, Std.compare_eq_iff_eq,
    Scope.compare_eq_iff, Event.mk.injEq]

theorem Trace.mem_insert {event other : Event} {events : List Event} :
    other ∈ insert event events ↔ other = event ∨ other ∈ events := by
  induction events with
  | nil => simp [insert]
  | cons first rest ih =>
      rw [insert]
      cases horder : event.compare first with
      | lt => exact List.mem_cons
      | eq =>
          -- The event is there already.
          rw [Event.compare_eq_iff.mp horder]
          simp
      | gt =>
          simp only [List.mem_cons, ih]
          exact or_left_comm

namespace Recorder

/-- What is recorded is there from then on, next to everything else. -/
theorem mem_contents_record {recorder : Recorder} {event other : Event}
    (hrecording : recorder ≠ .off) :
    other ∈ (recorder.record event).contents ↔ other = event ∨ other ∈ recorder.contents := by
  cases recorder with
  | off => exact absurd rfl hrecording
  | on events => exact Trace.mem_insert

theorem record_ne_off {recorder : Recorder} (hrecording : recorder ≠ .off) (event : Event) :
    recorder.record event ≠ .off := by
  cases recorder with
  | off => exact absurd rfl hrecording
  | on events => exact nofun

end Recorder

end ArchSpec
