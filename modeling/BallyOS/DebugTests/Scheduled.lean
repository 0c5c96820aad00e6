import BallyOS.Flags.Flags
import Mathlib.Data.List.Basic

/-! A scheduled debug test between two tasks: the shell schedules and cancels it, and the task
that takes the samples polls it. Each load and store of an atomic is a step of its own. -/
namespace BallyOS.DebugTests
open Library
open Flags (millis)

/-- How far the shell has come in `schedule`; `samples` and `intervalMs` are what it was given. -/
inductive Shell
  | idle
  | intervalStored (samples intervalMs : UInt32)
  | clockRead (samples intervalMs startMs : UInt32)
  | nextStored (samples intervalMs : UInt32)
deriving Repr, DecidableEq

/-- How far `poll` has come, with what it has read. `epoch` is how many schedule calls had been
made when it loaded `remaining`, and `nowMs` the whole of the time that it read. -/
inductive Poll
  | idle
  | loaded (remaining : UInt32) (epoch : Nat)
  | timed (remaining : UInt32) (nowMs epoch : Nat)
  | due (remaining : UInt32) (nowMs epoch : Nat)
  | stored (nowMs epoch : Nat)
  | advancing (nowMs : Nat) (intervalMs : UInt32) (epoch : Nat)
  | returning (nowMs epoch : Nat)
deriving Repr, DecidableEq

/-- A poll that returned true: the time that it read, and the time at which it returned. -/
structure Sample where
  epoch : Nat
  nowMs : Nat
  returnMs : Nat
deriving Repr, DecidableEq

/-- The atomics and the two tasks, and what nobody keeps: the schedule calls in order, the
samples with the latest first, whether a cancel is the last call, whether the poll that was under
way then still is, and the samples since. -/
structure World where
  nowMs : Nat := 0
  remaining : UInt32 := 0
  intervalMs : UInt32 := 0
  nextMs : UInt32 := 0
  shell : Shell := .idle
  poll : Poll := .idle
  schedules : List (UInt32 × UInt32) := []
  samples : List Sample := []
  cancelled : Bool := false
  pending : Bool := false
  sampledSince : Nat := 0
deriving Repr, DecidableEq

inductive Event
  | tick (ms : Nat)
  | schedule (samples intervalMs : UInt32)
  | readClock
  | storeNext
  | storeRemaining
  | cancel
  | poll
  | pollClock
  | pollNext
  | pollStore
  | pollInterval
  | pollAdvance
  | pollReturn
deriving Repr, DecidableEq

/-- The difference as a signed number is negative. -/
def isEarly (nowMs nextMs : UInt32) : Bool := 0x80000000 ≤ nowMs - nextMs

def World.active (world : World) : Bool := world.remaining ≠ 0

/-- The poll returns, false if not said otherwise. -/
def World.returns (world : World) : World := { world with poll := .idle, pending := false }

def step : Machine World Event
  | world, .tick ms => some { world with nowMs := world.nowMs + ms }
  | world, .schedule samples intervalMs =>
    match world.shell with
    | .idle =>
      if samples = 0 then some world
      else some { world with
        intervalMs := intervalMs
        shell := .intervalStored samples intervalMs
        cancelled := false }
    | _ => none
  | world, .readClock =>
    match world.shell with
    | .intervalStored samples intervalMs =>
      some { world with shell := .clockRead samples intervalMs (millis world.nowMs) }
    | _ => none
  | world, .storeNext =>
    match world.shell with
    | .clockRead samples intervalMs startMs =>
      some { world with nextMs := startMs, shell := .nextStored samples intervalMs }
    | _ => none
  | world, .storeRemaining =>
    match world.shell with
    | .nextStored samples intervalMs =>
      some { world with
        remaining := samples
        shell := .idle
        schedules := world.schedules ++ [(samples, intervalMs)] }
    | _ => none
  | world, .cancel =>
    match world.shell with
    | .idle =>
      some { world with
        remaining := 0
        cancelled := true
        pending := world.poll ≠ .idle
        sampledSince := 0 }
    | _ => none
  | world, .poll =>
    match world.poll with
    | .idle =>
      if world.remaining = 0 then some world
      else some { world with poll := .loaded world.remaining world.schedules.length }
    | _ => none
  | world, .pollClock =>
    match world.poll with
    | .loaded remaining epoch => some { world with poll := .timed remaining world.nowMs epoch }
    | _ => none
  | world, .pollNext =>
    match world.poll with
    | .timed remaining nowMs epoch =>
      if isEarly (millis nowMs) world.nextMs then some world.returns
      else some { world with poll := .due remaining nowMs epoch }
    | _ => none
  | world, .pollStore =>
    match world.poll with
    | .due remaining nowMs epoch =>
      some { world with remaining := remaining - 1, poll := .stored nowMs epoch }
    | _ => none
  | world, .pollInterval =>
    match world.poll with
    | .stored nowMs epoch => some { world with poll := .advancing nowMs world.intervalMs epoch }
    | _ => none
  | world, .pollAdvance =>
    match world.poll with
    | .advancing nowMs intervalMs epoch =>
      some { world with
        nextMs := millis nowMs + intervalMs
        poll := .returning nowMs epoch }
    | _ => none
  | world, .pollReturn =>
    match world.poll with
    | .returning nowMs epoch =>
      some { world.returns with
        samples := ⟨epoch, nowMs, world.nowMs⟩ :: world.samples
        sampledSince := world.sampledSince + 1 }
    | _ => none

/-- What a step can be. -/
inductive Moved (world : World) : Event → World → Prop
  | stayed (event : Event) : Moved world event world
  | ticked (ms : Nat) : Moved world (.tick ms) { world with nowMs := world.nowMs + ms }
  | began (samples intervalMs : UInt32) (here : world.shell = .idle) (some : samples ≠ 0) :
    Moved world (.schedule samples intervalMs) { world with
      intervalMs := intervalMs
      shell := .intervalStored samples intervalMs
      cancelled := false }
  | read (samples intervalMs : UInt32) (here : world.shell = .intervalStored samples intervalMs) :
    Moved world .readClock
      { world with shell := .clockRead samples intervalMs (millis world.nowMs) }
  | placed (samples intervalMs startMs : UInt32)
      (here : world.shell = .clockRead samples intervalMs startMs) :
    Moved world .storeNext
      { world with nextMs := startMs, shell := .nextStored samples intervalMs }
  | scheduled (samples intervalMs : UInt32) (here : world.shell = .nextStored samples intervalMs) :
    Moved world .storeRemaining { world with
      remaining := samples
      shell := .idle
      schedules := world.schedules ++ [(samples, intervalMs)] }
  | cancelled (here : world.shell = .idle) :
    Moved world .cancel { world with
      remaining := 0
      cancelled := true
      pending := world.poll ≠ .idle
      sampledSince := 0 }
  | loaded (here : world.poll = .idle) (some : world.remaining ≠ 0) :
    Moved world .poll { world with poll := .loaded world.remaining world.schedules.length }
  | timed (remaining : UInt32) (epoch : Nat) (here : world.poll = .loaded remaining epoch) :
    Moved world .pollClock { world with poll := .timed remaining world.nowMs epoch }
  | early (remaining : UInt32) (nowMs epoch : Nat)
      (here : world.poll = .timed remaining nowMs epoch) : Moved world .pollNext world.returns
  | due (remaining : UInt32) (nowMs epoch : Nat)
      (here : world.poll = .timed remaining nowMs epoch)
      (reached : isEarly (millis nowMs) world.nextMs = false) :
    Moved world .pollNext { world with poll := .due remaining nowMs epoch }
  | stored (remaining : UInt32) (nowMs epoch : Nat)
      (here : world.poll = .due remaining nowMs epoch) :
    Moved world .pollStore
      { world with remaining := remaining - 1, poll := .stored nowMs epoch }
  | advancing (nowMs epoch : Nat) (here : world.poll = .stored nowMs epoch) :
    Moved world .pollInterval { world with poll := .advancing nowMs world.intervalMs epoch }
  | advanced (nowMs : Nat) (intervalMs : UInt32) (epoch : Nat)
      (here : world.poll = .advancing nowMs intervalMs epoch) :
    Moved world .pollAdvance { world with
      nextMs := millis nowMs + intervalMs
      poll := .returning nowMs epoch }
  | sampled (nowMs epoch : Nat) (here : world.poll = .returning nowMs epoch) :
    Moved world .pollReturn { world.returns with
      samples := ⟨epoch, nowMs, world.nowMs⟩ :: world.samples
      sampledSince := world.sampledSince + 1 }

theorem moved_of_step {world next : World} {event : Event}
    (stepped : step world event = some next) : Moved world event next := by
  cases event with
  | tick ms =>
    cases stepped
    exact .ticked ms
  | schedule samples intervalMs =>
    simp only [step] at stepped
    split at stepped
    · rename_i here
      split at stepped
      · cases stepped
        exact .stayed _
      · rename_i some
        cases stepped
        exact .began samples intervalMs here some
    · contradiction
  | readClock =>
    simp only [step] at stepped
    split at stepped
    · rename_i here
      cases stepped
      exact .read _ _ here
    · contradiction
  | storeNext =>
    simp only [step] at stepped
    split at stepped
    · rename_i here
      cases stepped
      exact .placed _ _ _ here
    · contradiction
  | storeRemaining =>
    simp only [step] at stepped
    split at stepped
    · rename_i here
      cases stepped
      exact .scheduled _ _ here
    · contradiction
  | cancel =>
    simp only [step] at stepped
    split at stepped
    · rename_i here
      cases stepped
      exact .cancelled here
    · contradiction
  | poll =>
    simp only [step] at stepped
    split at stepped
    · rename_i here
      split at stepped
      · cases stepped
        exact .stayed _
      · rename_i some
        cases stepped
        exact .loaded here some
    · contradiction
  | pollClock =>
    simp only [step] at stepped
    split at stepped
    · rename_i here
      cases stepped
      exact .timed _ _ here
    · contradiction
  | pollNext =>
    simp only [step] at stepped
    split at stepped
    · rename_i here
      split at stepped
      · cases stepped
        exact .early _ _ _ here
      · rename_i reached
        cases stepped
        exact .due _ _ _ here (Bool.eq_false_iff.mpr reached)
    · contradiction
  | pollStore =>
    simp only [step] at stepped
    split at stepped
    · rename_i here
      cases stepped
      exact .stored _ _ _ here
    · contradiction
  | pollInterval =>
    simp only [step] at stepped
    split at stepped
    · rename_i here
      cases stepped
      exact .advancing _ _ here
    · contradiction
  | pollAdvance =>
    simp only [step] at stepped
    split at stepped
    · rename_i here
      cases stepped
      exact .advanced _ _ _ here
    · contradiction
  | pollReturn =>
    simp only [step] at stepped
    split at stepped
    · rename_i here
      cases stepped
      exact .sampled _ _ here
    · contradiction

end BallyOS.DebugTests
