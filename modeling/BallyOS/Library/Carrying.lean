import Mathlib.Data.Int.Order.Basic
import Mathlib.Tactic.Linarith

/-! A narrow counter that starts over at its limits. What it had come to waits
there until someone carries it over to a wider one. -/
namespace BallyOS.Library

structure CounterLimits where
  low : Int
  high : Int
  low_neg : low < 0
  high_pos : 0 < high

/-- `waits` is how many steps the limit has been waiting. -/
structure Narrow where
  raw : Int
  waiting : Option Int
  waits : Nat
deriving Repr, DecidableEq

namespace Narrow

def zero : Narrow where
  raw := 0
  waiting := none
  waits := 0

def count (limits : CounterLimits) (narrow : Narrow) (change : Int) : Narrow :=
  if narrow.raw + change = limits.high then
    { raw := 0, waiting := some limits.high, waits := 0 }
  else if narrow.raw + change = limits.low then
    { raw := 0, waiting := some limits.low, waits := 0 }
  else { narrow with raw := narrow.raw + change, waits := narrow.waits + 1 }

def carried (narrow : Narrow) : Narrow := { narrow with waiting := none }

/-- What is still to go into the wider counter. -/
def held (narrow : Narrow) : Int := narrow.raw + narrow.waiting.getD 0

structure Fits (limits : CounterLimits) (narrow : Narrow) : Prop where
  above : limits.low < narrow.raw
  below : narrow.raw < limits.high
  waited : narrow.waiting ≠ none → narrow.raw.natAbs ≤ narrow.waits
  limit : ∀ limit, narrow.waiting = some limit → limit = limits.high ∨ limit = limits.low

variable {limits : CounterLimits} {narrow : Narrow}

theorem fits_zero (limits : CounterLimits) : Fits limits zero where
  above := limits.low_neg
  below := limits.high_pos
  waited := nofun
  limit := nofun

theorem fits_carried (fits : Fits limits narrow) : Fits limits narrow.carried :=
  ⟨fits.above, fits.below, nofun, nofun⟩

theorem fits_count (fits : Fits limits narrow) (single : change.natAbs = 1) :
    Fits limits (narrow.count limits change) := by
  have above := fits.above
  have below := fits.below
  unfold count
  split
  · exact ⟨limits.low_neg, limits.high_pos, fun _ => by simp,
      fun _ same => .inl (by simpa using same.symm)⟩
  · split
    · exact ⟨limits.low_neg, limits.high_pos, fun _ => by simp,
        fun _ same => .inr (by simpa using same.symm)⟩
    · refine ⟨?_, ?_, fun waiting => ?_, fits.limit⟩ <;> dsimp only at *
      · omega
      · omega
      · have := fits.waited waiting
        omega

theorem waiting_of_apart (notHigh : narrow.raw + change ≠ limits.high)
    (notLow : narrow.raw + change ≠ limits.low) :
    (narrow.count limits change).waiting = narrow.waiting := by
  simp [count, notHigh, notLow]

theorem waiting_count (waiting : narrow.waiting ≠ none) :
    (narrow.count limits change).waiting ≠ none := by
  unfold count
  split
  · nofun
  · split
    · nofun
    · exact waiting

/-- A step counts, unless a limit comes before the one that waits was carried over. -/
theorem held_count (fits : Fits limits narrow) (single : change.natAbs = 1)
    (served : narrow.waiting ≠ none →
      narrow.waits + 1 < limits.high ∧ narrow.waits + 1 < -limits.low) :
    (narrow.count limits change).held = narrow.held + change := by
  have free (reached : narrow.raw + change = limits.high ∨ narrow.raw + change = limits.low) :
      narrow.waiting = none := by
    by_contra waiting
    have near := fits.waited waiting
    have soon := served waiting
    omega
  unfold count
  split
  · rename_i reached
    simp [held, free (.inl reached), ← reached]
  · split
    · rename_i reached
      simp [held, free (.inr reached), ← reached]
    · simp only [held]
      omega

end Narrow

end BallyOS.Library
