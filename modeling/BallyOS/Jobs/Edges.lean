import Mathlib.Algebra.Group.Nat.Defs
import BallyOS.Jobs.Table
import BallyOS.Jobs.Rate

/-! Jobs on entering a state fire on the edge into it, whatever shares the table with them. -/
namespace BallyOS.Jobs
open Library

/-- How often a list of polled states goes into `state` from another: the state polled before
them is the first one's other side, and where none was, the first one goes into nothing. -/
def entries (state : UInt8) : Option UInt8 → List UInt8 → Nat
  | _, [] => 0
  | previous, current :: rest =>
    (if current = state ∧ previous.any (· ≠ state) then 1 else 0) + entries state current rest

private theorem entries_append (state : UInt8) (previous : Option UInt8) (first second : List UInt8)
    :
    entries state previous (first ++ second) =
      entries state previous first + entries state (first.getLast?.or previous) second := by
  induction first generalizing previous with
  | nil => simp [entries]
  | cons current rest ih =>
    have latest : (current :: rest).getLast?.or previous = rest.getLast?.or (some current) := by
      rw [List.getLast?_cons]
      cases rest.getLast? <;> rfl
    simp only [List.cons_append, entries, ih, latest]
    exact (Nat.add_assoc ..).symm

/-- A job that stays what it is: active, on entering the same state, with the same command. -/
structure Keeps (job after : Job) : Prop where
  active : after.active = true
  kind : after.kind = job.kind
  state : after.state = job.state
  id : after.id = job.id
  command : after.command = job.command

end BallyOS.Jobs
