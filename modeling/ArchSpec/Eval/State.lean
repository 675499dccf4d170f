import ArchSpec.Eval.Effect
import ArchSpec.Eval.Storage
import ArchSpec.Trace.Event

/-!
# The state of a run

A run changes variables, keeps the exceptions whose handlers are running,
prints, warns, and records variable accesses.
-/

namespace ArchSpec

structure State where
  storage : Storage Value
  /-- Exceptions whose handlers are running, innermost first. -/
  handled : List Value
  recorder : Recorder
  /-- Warnings raised so far, the latest first. -/
  warnings : List String
  printed : String

abbrev Eval (α : Type) := Effect State α

namespace State

/-- The state before the first run. -/
def start (recording : Bool) : State :=
  ⟨.empty, [], .start recording, [], ""⟩

def onStorage (change : Storage Value → Storage Value) (state : State) : State :=
  { state with storage := change state.storage }

/-- Starts to handle an exception. -/
def pushHandled (exc : Value) (state : State) : State :=
  { state with handled := exc :: state.handled }

/-- Ends the innermost handler. -/
def popHandled (state : State) : State :=
  { state with handled := state.handled.tail }

def note (access : Access) (name : String) (scope : Scope) (state : State) : State :=
  { state with recorder := state.recorder.record ⟨access, name, scope⟩ }

def warn (message : String) (state : State) : State :=
  { state with warnings := message :: state.warnings }

def print (text : String) (state : State) : State :=
  { state with printed := state.printed ++ text }

end State

namespace Eval

def readVariable (name : String) : Eval Value := fun state =>
  match state.storage.lookup name with
  | some (value, scope) => (.done value, state.note .read name scope)
  | none => (.failed (.undefinedIdentifier name), state)

def writeVariable (name : String) (value : Value) : Eval Unit := fun state =>
  match state.storage.assign name value with
  | some (storage, scope) =>
      (.done (), { state with storage }.note .write name scope)
  | none => (.failed (.undefinedIdentifier name), state)

def declareLocal (name : String) (value : Value) : Eval Unit :=
  Effect.modify fun state =>
    (state.note .write name state.storage.currentScope).onStorage
      (·.declare name value)

def declareGlobal (name : String) (value : Value) : Eval Unit :=
  Effect.modify fun state =>
    (state.onStorage (·.declareGlobal name value)).note .write name
      state.storage.globalScope

/-- Runs `body` in a block of its own. -/
def inBlock {α : Type} (body : Eval α) : Eval α :=
  Effect.within (State.onStorage Storage.pushBlock) (State.onStorage Storage.popBlock) body

/-- Ends the program if the activations of a subprogram cannot be counted on. -/
def countActivation (subprogram : String) : Eval Unit := fun state =>
  if state.storage.Full subprogram then (.overflowed, state) else (.done (), state)

/-- Runs `body` in a new activation of a subprogram. -/
def inActivation {α : Type} (subprogram : String) (body : Eval α) : Eval α := do
  countActivation subprogram
  Effect.within (State.onStorage (·.pushFrame subprogram)) (State.onStorage Storage.popFrame)
    body

/-- Runs `body` as part of the handler of an exception. -/
def whileHandling {α : Type} (exc : Value) (body : Eval α) : Eval α :=
  Effect.within (State.pushHandled exc) State.popHandled body

def whileInitialising {α : Type} (body : Eval α) : Eval α :=
  Effect.within (State.onStorage (·.setInitialising true))
    (State.onStorage (·.setInitialising false)) body

end Eval

end ArchSpec
