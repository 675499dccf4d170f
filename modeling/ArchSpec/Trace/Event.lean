import ArchSpec.Trace.Scope

/-!
# Traces

A trace is the set of variable accesses that a run made.  It is kept as a
strictly increasing list, so two runs that made the same accesses in any order
and any number of times have equal traces.  A recorder that is off keeps
nothing.
-/

namespace ArchSpec

/-- The two ways to access a variable. -/
inductive Access where
  | read
  | write
deriving DecidableEq

namespace Access

/-- Reads come before writes. -/
def compare : Access → Access → Ordering
  | read, read => .eq
  | read, write => .lt
  | write, read => .gt
  | write, write => .eq

def name : Access → String
  | read => "read"
  | write => "write"

end Access

structure Event where
  access : Access
  identifier : String
  scope : Scope
deriving DecidableEq

namespace Event

/-- Events are ordered by access, identifier and scope. -/
def compare (left right : Event) : Ordering :=
  (left.access.compare right.access).then
    ((Ord.compare left.identifier right.identifier).then
      (left.scope.compare right.scope))

def print (event : Event) : String :=
  event.access.name ++ " " ++ event.identifier ++ " @ " ++ event.scope.print

end Event

namespace Trace

/-- A trace with one more event; an event that is there already changes
nothing. -/
def insert (event : Event) : List Event → List Event
  | [] => [event]
  | first :: rest =>
      match event.compare first with
      | .lt => event :: first :: rest
      | .eq => first :: rest
      | .gt => first :: insert event rest

end Trace

/-- Keeps the accesses of a run, or ignores them. -/
inductive Recorder where
  | off
  | on (events : List Event)

namespace Recorder

def start (recording : Bool) : Recorder := if recording then .on [] else .off

def record (event : Event) : Recorder → Recorder
  | off => off
  | on events => on (Trace.insert event events)

def reset : Recorder → Recorder
  | off => off
  | on _ => on []

def contents : Recorder → List Event
  | off => []
  | on events => events

end Recorder

end ArchSpec
