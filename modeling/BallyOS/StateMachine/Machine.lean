import BallyOS.Library.Calls
import BallyOS.Library.Run

/-! The state machine under its two tasks. `run` is called by the state-machine
task and `next` by the routine task; each takes the transition mutex, loads the
current state, calls the state's callback and stores what it returns. Errors are
reported by a store of its own, made after the mutex was given back. -/
namespace BallyOS.StateMachine
open Library

inductive StateName
  | none
  | setup
  | wait
  | calibrate
  | debug
  | run
  | finish
  | telemetry
  | error
  | commConfig
deriving Repr, DecidableEq

def verifyState (state : StateName) : Bool := state ≠ .none

/-- Who transitions: `run` on the one task, `next` on the other. -/
inductive Mover
  | run
  | next
deriving Repr, DecidableEq

/-- How far a call has come. -/
inductive Call
  | idle
  | locked
  /-- The active state was loaded and has a callback. -/
  | loaded (activeState : StateName)
  /-- The callback returned. -/
  | computed (activeState nextState : StateName)
  | stored
  /-- The call failed and still holds the mutex. -/
  | failing (reports : Nat)
  /-- The mutex was given back, with `reportError` still to be called. -/
  | reporting (reports : Nat)
deriving Repr, DecidableEq

structure World where
  currentState : StateName
  mutex : Option Mover := none
  calls : Mover → Call := fun _ => .idle
  /-- The states whose `action` (for `run`) or `next_state` (for `next`) is set. -/
  defined : Mover → StateName → Bool
  /-- An error was stored and no transition from ERROR has replaced it since. -/
  reported : Bool := false

namespace World

def goto (world : World) (mover : Mover) (call : Call) : World :=
  { world with calls := Function.update world.calls mover call }

@[simp] theorem goto_calls (world : World) (mover : Mover) (call : Call) :
    (world.goto mover call).calls = Function.update world.calls mover call := rfl

@[simp] theorem goto_currentState (world : World) (mover : Mover) (call : Call) :
    (world.goto mover call).currentState = world.currentState := rfl

@[simp] theorem goto_mutex (world : World) (mover : Mover) (call : Call) :
    (world.goto mover call).mutex = world.mutex := rfl

@[simp] theorem goto_reported (world : World) (mover : Mover) (call : Call) :
    (world.goto mover call).reported = world.reported := rfl

theorem goto_self (world : World) (mover : Mover) (call : Call) :
    (world.goto mover call).calls mover = call := by
  simp

theorem goto_other (world : World) (call : Call) (other : task ≠ mover) :
    (world.goto mover call).calls task = world.calls task := by
  simp [other]

end World

inductive Event
  | take (mover : Mover)
  /-- There is no mutex, or it could not be taken. -/
  | takeFailed (mover : Mover)
  | load (mover : Mover)
  /-- The callback returns a state, or throws. -/
  | callback (mover : Mover) (result : Option StateName)
  | store (mover : Mover)
  | give (mover : Mover)
  | reportError (mover : Mover)
deriving Repr, DecidableEq

def step : Machine World Event
  | world, .take mover =>
    match world.calls mover, world.mutex with
    | .idle, none => some ({ world with mutex := some mover }.goto mover .locked)
    | _, _ => none
  | world, .takeFailed mover =>
    match world.calls mover with
    | .idle => some (world.goto mover (.reporting 1))
    | _ => none
  | world, .load mover =>
    match world.calls mover with
    | .locked =>
      let activeState := world.currentState
      if verifyState activeState ∧ world.defined mover activeState then
        some (world.goto mover (.loaded activeState))
      else some (world.goto mover (.failing 1))
    | _ => none
  | world, .callback mover result =>
    match world.calls mover with
    | .loaded activeState =>
      match result with
      | some nextState => some (world.goto mover (.computed activeState nextState))
      | none => some (world.goto mover (.failing 2))
    | _ => none
  | world, .store mover =>
    match world.calls mover with
    | .computed activeState nextState =>
      some ({ world with
        currentState := nextState
        reported := world.reported && decide (activeState ≠ StateName.error) }.goto mover .stored)
    | _ => none
  | world, .give mover =>
    match world.calls mover with
    | .stored => some ({ world with mutex := none }.goto mover .idle)
    | .failing reports => some ({ world with mutex := none }.goto mover (.reporting reports))
    | _ => none
  | world, .reportError mover =>
    match world.calls mover with
    | .reporting (reports + 1) =>
      some ({ world with currentState := .error, reported := true }.goto mover
        (if reports = 0 then .idle else .reporting reports))
    | _ => none

/-- What a step can be. -/
inductive Moved (world : World) : Event → World → Prop
  | taken (mover : Mover) (here : world.calls mover = .idle) (free : world.mutex = none) :
    Moved world (.take mover) ({ world with mutex := some mover }.goto mover .locked)
  | refused (mover : Mover) (here : world.calls mover = .idle) :
    Moved world (.takeFailed mover) (world.goto mover (.reporting 1))
  | loaded (mover : Mover) (here : world.calls mover = .locked) :
    Moved world (.load mover) (world.goto mover (.loaded world.currentState))
  | undefined (mover : Mover) (here : world.calls mover = .locked) :
    Moved world (.load mover) (world.goto mover (.failing 1))
  | returned (mover : Mover) (active nextState : StateName)
      (here : world.calls mover = .loaded active) :
    Moved world (.callback mover (some nextState)) (world.goto mover (.computed active nextState))
  | threw (mover : Mover) (active : StateName) (here : world.calls mover = .loaded active) :
    Moved world (.callback mover none) (world.goto mover (.failing 2))
  | stored (mover : Mover) (active nextState : StateName)
      (here : world.calls mover = .computed active nextState) :
    Moved world (.store mover) ({ world with
      currentState := nextState
      reported := world.reported && decide (active ≠ StateName.error) }.goto mover .stored)
  | gave (mover : Mover) (here : world.calls mover = .stored) :
    Moved world (.give mover) ({ world with mutex := none }.goto mover .idle)
  | gaveUp (mover : Mover) (reports : Nat) (here : world.calls mover = .failing reports) :
    Moved world (.give mover) ({ world with mutex := none }.goto mover (.reporting reports))
  | reported (mover : Mover) (reports : Nat)
      (here : world.calls mover = .reporting (reports + 1)) :
    Moved world (.reportError mover)
      ({ world with currentState := .error, reported := true }.goto mover
        (if reports = 0 then .idle else .reporting reports))

theorem moved_of_step (stepped : step world event = some next) : Moved world event next := by
  cases event with
  | take mover =>
    simp only [step] at stepped
    split at stepped
    · rename_i here free
      cases stepped
      exact .taken mover here free
    · contradiction
  | takeFailed mover =>
    simp only [step] at stepped
    split at stepped
    · rename_i here
      cases stepped
      exact .refused mover here
    · contradiction
  | load mover =>
    simp only [step] at stepped
    split at stepped
    · rename_i here
      split at stepped
      · cases stepped
        exact .loaded mover here
      · cases stepped
        exact .undefined mover here
    · contradiction
  | callback mover result =>
    simp only [step] at stepped
    split at stepped
    · rename_i active here
      cases result with
      | some nextState =>
        cases stepped
        exact .returned mover active nextState here
      | none =>
        cases stepped
        exact .threw mover active here
    · contradiction
  | store mover =>
    simp only [step] at stepped
    split at stepped
    · rename_i active nextState here
      cases stepped
      exact .stored mover active nextState here
    · contradiction
  | give mover =>
    simp only [step] at stepped
    split at stepped
    · rename_i here
      cases stepped
      exact .gave mover here
    · rename_i reports here
      cases stepped
      exact .gaveUp mover reports here
    · contradiction
  | reportError mover =>
    simp only [step] at stepped
    split at stepped
    · rename_i reports here
      cases stepped
      exact .reported mover reports here
    · contradiction

/-- The state machine as the tasks find it, in the state it was booted into. -/
def start (bootState : StateName) (defined : Mover → StateName → Bool) : World :=
  { currentState := bootState, defined }

end BallyOS.StateMachine
