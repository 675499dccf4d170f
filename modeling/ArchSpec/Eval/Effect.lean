import ArchSpec.Data.Value

/-!
# Effects

A computation changes a state and ends in one of five ways: with a value, by
throwing an exception of the language, by a fault, because a machine word
overflowed, or because the bound on calls and loop rounds was used up.  The state
that a fault leaves behind is part of the result, since it can be observed later.
An overflow ends the program on the spot, and nothing runs after it.
-/

namespace ArchSpec

/-- How a computation ends. -/
inductive Outcome (α : Type) where
  | done (value : α)
  /-- An exception of the language is looking for a handler. -/
  | thrown (exc : Value)
  | failed (fault : Fault)
  /-- A sum that is kept in a machine word did not fit it. -/
  | overflowed
  /-- The bound on calls and loop rounds was too small to tell. -/
  | exhausted

namespace Outcome

variable {α β : Type}

/-- The outcome of two computations that both ran; of two faults, and of two
exceptions, the left one counts. -/
def both : Outcome α → Outcome β → Outcome (α × β)
  | exhausted, _ => exhausted
  | _, exhausted => exhausted
  | overflowed, _ => overflowed
  | _, overflowed => overflowed
  | failed fault, _ => failed fault
  | _, failed fault => failed fault
  | thrown exc, _ => thrown exc
  | _, thrown exc => thrown exc
  | done left, done right => done (left, right)

end Outcome

/-- A computation on a state. -/
def Effect (σ α : Type) : Type := σ → Outcome α × σ

namespace Effect

variable {σ α β : Type}

@[inline] def ret (value : α) : Effect σ α := fun state => (.done value, state)

/-- Runs `first`, then what its value asks for; anything else than a value
skips the rest. -/
@[inline] def bind (first : Effect σ α) (next : α → Effect σ β) : Effect σ β :=
  fun state =>
    match first state with
    | (.done value, state) => next value state
    | (.thrown exc, state) => (.thrown exc, state)
    | (.failed fault, state) => (.failed fault, state)
    | (.overflowed, state) => (.overflowed, state)
    | (.exhausted, state) => (.exhausted, state)

instance : Monad (Effect σ) where
  pure := ret
  bind := bind

@[inline] def throwing (exc : Value) : Effect σ α := fun state => (.thrown exc, state)

@[inline] def fault (cause : Fault) : Effect σ α := fun state => (.failed cause, state)

/-- Ends the program because a machine word overflowed. -/
@[inline] def overflow : Effect σ α := fun state => (.overflowed, state)

/-- Gives up because the bound is used up. -/
@[inline] def exhaust : Effect σ α := fun state => (.exhausted, state)

/-- A result that needs no state. -/
@[inline] def lift (result : Except Fault α) : Effect σ α := fun state =>
  match result with
  | .ok value => (.done value, state)
  | .error cause => (.failed cause, state)

/-- A result that needs no state; there is none where a machine word
overflowed. -/
@[inline] def liftSized (result : Except Fault (Option α)) : Effect σ α :=
  bind (lift result) fun
    | some value => ret value
    | none => overflow

@[inline] def get : Effect σ σ := fun state => (.done state, state)

/-- Changes the state. -/
@[inline] def modify (change : σ → σ) : Effect σ Unit := fun state => (.done (), change state)

/-- Runs both computations, the second one even if the first one fails. -/
def both (left : Effect σ α) (right : Effect σ β) : Effect σ (α × β) :=
  fun state =>
    match left state with
    | (.overflowed, state) => (.overflowed, state)
    | (leftOutcome, state) =>
        let (rightOutcome, state) := right state
        (leftOutcome.both rightOutcome, state)

/-- Runs one of two computations, as a boolean value says. -/
def select (test : Value) (yes no : Effect σ α) : Effect σ α := do
  if ← lift test.asBool then yes else no

/-- Changes the state by `enter`, runs `body`, and changes it by `leave` when
`body` ends or throws.  A fault or an overflow leaves the state as it is. -/
def within (enter leave : σ → σ) (body : Effect σ α) : Effect σ α := fun state =>
  match body (enter state) with
  | (.done value, state) => (.done value, leave state)
  | (.thrown exc, state) => (.thrown exc, leave state)
  | (.failed cause, state) => (.failed cause, state)
  | (.overflowed, state) => (.overflowed, state)
  | (.exhausted, state) => (.exhausted, state)

/-- Handles an exception that `body` throws. -/
def handling (body : Effect σ α) (handler : Value → Effect σ α) : Effect σ α :=
  fun state =>
    match body state with
    | (.thrown exc, state) => handler exc state
    | other => other

/-- Repeats a step at most `rounds` times, until it yields a final value. -/
def iterate (step : α → Effect σ (α ⊕ β)) : Nat → α → Effect σ β
  | 0, _, state => (.exhausted, state)
  | rounds + 1, current, state =>
      match step current state with
      | (.done (.inl next), state) => iterate step rounds next state
      | (.done (.inr final), state) => (.done final, state)
      | (.thrown exc, state) => (.thrown exc, state)
      | (.failed cause, state) => (.failed cause, state)
      | (.overflowed, state) => (.overflowed, state)
      | (.exhausted, state) => (.exhausted, state)

end Effect

end ArchSpec
