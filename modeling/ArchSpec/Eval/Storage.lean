import ArchSpec.Data.Named
import ArchSpec.Trace.Scope

/-!
# Storage

Global variables live in one list.  Every activation of a subprogram has a
frame: a parameter block that stays until the frame goes, and a stack of inner
blocks.  Names are looked up in the innermost block first, in the current frame
only, and then among the globals.
-/

namespace ArchSpec

namespace Blocks

variable {α : Type}

/-- The value under `name` in the first block that has it. -/
def get? : List (Named α) → String → Option α
  | [], _ => none
  | block :: rest, name =>
      match Named.get? block name with
      | some value => some value
      | none => get? rest name

/-- The blocks with the value under `name` overwritten in the first block that
has it. -/
def replace? : List (Named α) → String → α → Option (List (Named α))
  | [], _, _ => none
  | block :: rest, name, new =>
      match Named.replace? block name new with
      | some block => some (block :: rest)
      | none => (replace? rest name new).map (block :: ·)

end Blocks

/-- The variables of one activation; `inner` has the innermost block first. -/
structure Frame (α : Type) where
  scope : Scope
  inner : List (Named α)
  parameters : Named α

namespace Frame

variable {α : Type}

/-- The value under `name`, innermost block first. -/
def get? (frame : Frame α) (name : String) : Option α :=
  match Blocks.get? frame.inner name with
  | some value => some value
  | none => Named.get? frame.parameters name

/-- Overwrites the value that `get?` finds. -/
def replace? (frame : Frame α) (name : String) (new : α) : Option (Frame α) :=
  match Blocks.replace? frame.inner name new with
  | some inner => some { frame with inner }
  | none =>
      (Named.replace? frame.parameters name new).map fun parameters =>
        { frame with parameters }

/-- Binds `name` in the innermost block. -/
def declare (frame : Frame α) (name : String) (value : α) : Frame α :=
  match frame.inner with
  | block :: rest => { frame with inner := Named.insert block name value :: rest }
  | [] => { frame with parameters := Named.insert frame.parameters name value }

end Frame

/-- Global variables and the frames of all activations, innermost first. -/
structure Storage (α : Type) where
  globals : Named α
  frames : List (Frame α)
  /-- How often each subprogram was activated so far. -/
  activations : Named UInt32
  /-- Whether global initialisers are running. -/
  initialising : Bool

namespace Storage

variable {α : Type}

def empty : Storage α := ⟨[], [], [], false⟩

/-- The scope of global variables now. -/
def globalScope (storage : Storage α) : Scope := .global storage.initialising

/-- The scope of a variable that would be declared now. -/
def currentScope (storage : Storage α) : Scope :=
  match storage.frames with
  | frame :: _ => frame.scope
  | [] => storage.globalScope

def depth (storage : Storage α) : Nat := storage.frames.length

def setInitialising (storage : Storage α) (initialising : Bool) : Storage α :=
  { storage with initialising }

def declareGlobal (storage : Storage α) (name : String) (value : α) : Storage α :=
  { storage with globals := Named.insert storage.globals name value }

/-- The number of the last activation of a subprogram, or zero. -/
def latest (storage : Storage α) (subprogram : String) : UInt32 :=
  (Named.get? storage.activations subprogram).getD 0

/-- There is no number for another activation of a subprogram. -/
def Full (storage : Storage α) (subprogram : String) : Prop :=
  UInt32.size ≤ (storage.latest subprogram).toNat + 1

instance (storage : Storage α) (subprogram : String) : Decidable (storage.Full subprogram) :=
  inferInstanceAs (Decidable (UInt32.size ≤ _))

/-- Starts an activation of a subprogram, which has to have a number for it. -/
def pushFrame (storage : Storage α) (subprogram : String) : Storage α :=
  let number := storage.latest subprogram + 1
  { storage with
    activations := Named.insert storage.activations subprogram number
    frames := ⟨.activation subprogram number, [], []⟩ :: storage.frames }

/-- Ends the current activation, if there is one. -/
def popFrame (storage : Storage α) : Storage α :=
  { storage with frames := storage.frames.tail }

/-- Applies a change to the current frame, if there is one. -/
def onFrame (storage : Storage α) (change : Frame α → Frame α) : Storage α :=
  match storage.frames with
  | frame :: rest => { storage with frames := change frame :: rest }
  | [] => storage

/-- Enters a block of the current frame. -/
def pushBlock (storage : Storage α) : Storage α :=
  storage.onFrame fun frame => { frame with inner := [] :: frame.inner }

/-- Leaves the innermost block; the parameter block stays. -/
def popBlock (storage : Storage α) : Storage α :=
  storage.onFrame fun frame => { frame with inner := frame.inner.tail }

/-- Binds `name` in the innermost block, or globally outside any frame. -/
def declare (storage : Storage α) (name : String) (value : α) : Storage α :=
  match storage.frames with
  | frame :: rest => { storage with frames := frame.declare name value :: rest }
  | [] => storage.declareGlobal name value

/-- The value under `name` among the globals, with its scope. -/
def lookupGlobal (storage : Storage α) (name : String) : Option (α × Scope) :=
  (Named.get? storage.globals name).map fun value => (value, storage.globalScope)

/-- The value under `name` and where it lives. -/
def lookup (storage : Storage α) (name : String) : Option (α × Scope) :=
  match storage.frames with
  | frame :: _ =>
      match frame.get? name with
      | some value => some (value, frame.scope)
      | none => storage.lookupGlobal name
  | [] => storage.lookupGlobal name

def assignGlobal (storage : Storage α) (name : String) (value : α) :
    Option (Storage α × Scope) :=
  (Named.replace? storage.globals name value).map fun globals =>
    ({ storage with globals }, storage.globalScope)

def assign (storage : Storage α) (name : String) (value : α) :
    Option (Storage α × Scope) :=
  match storage.frames with
  | frame :: rest =>
      match frame.replace? name value with
      | some frame => some ({ storage with frames := frame :: rest }, frame.scope)
      | none => storage.assignGlobal name value
  | [] => storage.assignGlobal name value

end Storage

end ArchSpec
