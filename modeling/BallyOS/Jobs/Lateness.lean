import Mathlib.Algebra.Group.Nat.Defs
import Mathlib.Algebra.GroupWithZero.Nat
import BallyOS.Jobs.Table
import BallyOS.Jobs.Rate

/-! What a poll that comes late drops, and what it counts as dropped. -/
namespace BallyOS.Jobs
open Library

/-- A timed job whose next occurrence has come. -/
def Job.isDue (job : Job) (nowMs : UInt64) : Prop :=
  job.active = true ∧ job.kind ≠ .onStateEnter ∧ job.nextMs ≠ 0 ∧ job.nextMs ≤ nowMs

instance (job : Job) (nowMs : UInt64) : Decidable (job.isDue nowMs) :=
  inferInstanceAs (Decidable (_ ∧ _))

/-- Whether the schedule has one more occurrence, that many after the next. -/
def Job.occurs (job : Job) (later : Nat) : Bool :=
  job.remaining = 0 ∨ later < job.remaining.toNat

/-- The occurrences that a poll drops: those after the one it fires that the schedule had and
whose time has come. -/
def Job.dropped (job : Job) (nowMs : UInt64) : Nat :=
  if job.isDue nowMs then
    (List.range nowMs.toNat).countP fun before => job.occurs (before + 1) ∧
      job.nextMs.toNat + (before + 1) * job.intervalMs.toNat ≤ nowMs.toNat
  else 0

end BallyOS.Jobs
