import Mathlib.Data.List.Perm.Basic
import ArchSpec.Proofs.Traces.Contents

/-!
# The order of events

The order of accesses, of scopes and of events is a total one.  So it makes no
difference to a trace in which order events are recorded.
-/

namespace ArchSpec

open Std

/-- What is ordered by a property that has an order is ordered too. -/
theorem transCmp_on {α β : Type} (property : α → β) (cmp : β → β → Ordering) [TransCmp cmp] :
    TransCmp fun left right => cmp (property left) (property right) where
  eq_swap := OrientedCmp.eq_swap
  isLE_trans := TransCmp.isLE_trans

instance : TransCmp Access.compare where
  eq_swap {left right} := by cases left <;> cases right <;> rfl
  isLE_trans {left middle right} := by
    cases left <;> cases middle <;> cases right <;> decide

theorem Scope.compare_global (initialising initialising' : Bool) :
    (Scope.global initialising).compare (.global initialising') =
      Ord.compare initialising initialising' := rfl

/-- Activations are ordered as pairs of their names and numbers. -/
theorem Scope.compare_activation (name name' : String) (number number' : UInt32) :
    (Scope.activation name number).compare (.activation name' number') =
      compareLex (compareOn Prod.fst) (compareOn Prod.snd) (name, number) (name', number') := rfl

instance : TransCmp Scope.compare where
  eq_swap {left right} := by
    cases left <;> cases right
    · rw [Scope.compare_global, Scope.compare_global]
      exact OrientedCmp.eq_swap
    · rfl
    · rfl
    · rw [Scope.compare_activation, Scope.compare_activation]
      exact OrientedCmp.eq_swap
  isLE_trans {left middle right} := by
    cases left <;> cases middle <;> cases right
    · rw [Scope.compare_global, Scope.compare_global, Scope.compare_global]
      exact TransCmp.isLE_trans
    · exact fun _ _ => rfl
    · exact fun _ hright => nomatch hright
    · exact fun _ _ => rfl
    · exact fun hleft => nomatch hleft
    · exact fun hleft => nomatch hleft
    · exact fun _ hright => nomatch hright
    · rw [Scope.compare_activation, Scope.compare_activation, Scope.compare_activation]
      exact TransCmp.isLE_trans

instance : TransCmp Event.compare :=
  have := transCmp_on Event.access Access.compare
  have := transCmp_on Event.scope Scope.compare
  inferInstanceAs (TransCmp (compareLex (fun left right => left.access.compare right.access)
    (compareLex (compareOn Event.identifier)
      fun left right => left.scope.compare right.scope)))

namespace Trace

theorem insert_comm_of_lt {left right : Event} (horder : left.compare right = .lt)
    (events : List Event) :
    insert left (insert right events) = insert right (insert left events) := by
  have hback : right.compare left = .gt := OrientedCmp.gt_of_lt horder
  induction events with
  | nil => simp only [insert, horder, hback]
  | cons first rest ih =>
      -- Nothing comes before the left event and not before the right one.
      cases hleft : left.compare first with
      | lt =>
          cases hright : right.compare first <;>
            simp only [insert, hleft, hright, horder, hback]
      | eq =>
          obtain rfl := Event.compare_eq_iff.mp hleft
          simp only [insert, hback, ReflCmp.compare_self]
      | gt =>
          have hright : right.compare first = .gt :=
            OrientedCmp.gt_of_lt (TransCmp.lt_trans (OrientedCmp.lt_of_gt hleft) horder)
          simp only [insert, hleft, hright, ih]

/-- Two events may be recorded in either order. -/
theorem insert_comm (left right : Event) (events : List Event) :
    insert left (insert right events) = insert right (insert left events) := by
  cases horder : left.compare right with
  | lt => exact insert_comm_of_lt horder events
  | eq => rw [Event.compare_eq_iff.mp horder]
  | gt => exact (insert_comm_of_lt (OrientedCmp.lt_of_gt horder) events).symm

end Trace

namespace Recorder

/-- Events are recorded one after the other. -/
def recordAll (recorder : Recorder) (events : List Event) : Recorder :=
  events.foldl (fun recorder event => recorder.record event) recorder

variable {events events' : List Event}

theorem recordAll_append (recorder : Recorder) (events events' : List Event) :
    recorder.recordAll (events ++ events') = (recorder.recordAll events).recordAll events' :=
  List.foldl_append

theorem record_comm (recorder : Recorder) (left right : Event) :
    (recorder.record left).record right = (recorder.record right).record left := by
  cases recorder with
  | off => rfl
  | on events => exact congrArg on (Trace.insert_comm right left events)

/-- Events may be recorded in any order. -/
theorem recordAll_perm (hperm : events.Perm events') (recorder : Recorder) :
    recorder.recordAll events = recorder.recordAll events' :=
  hperm.foldl_eq' (fun left _ right _ recorder => record_comm recorder left right) recorder

end Recorder

end ArchSpec
