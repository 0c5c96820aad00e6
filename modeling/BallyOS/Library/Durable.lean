import Mathlib.Data.Nat.ModEq

/-! A cell of a store that outlives the power, and the numbers from one to a
limit taken in turn. A number that was committed before it is used is not used
again until all the others were. -/
namespace BallyOS.Library

/-- What is surely there after a loss of power, and what reads see. -/
structure Durable (Value : Type) where
  stored : Option Value
  written : Option Value
deriving Repr, DecidableEq

namespace Durable

def of (stored : Option Value) : Durable Value := ⟨stored, stored⟩

def write (cell : Durable Value) (value : Value) : Durable Value :=
  { cell with written := some value }

def commit (cell : Durable Value) : Durable Value := of cell.written

/-- What was written and not committed may have reached the store, or not. -/
def cut (cell : Durable Value) (survives : Bool) : Durable Value :=
  of (if survives then cell.written else cell.stored)

end Durable

/-- The number taken at each turn; the first turn takes one. -/
def rolling (limit : Nat) : Nat → Nat
  | 0 => 0
  | turn + 1 => turn % limit + 1

/-- After the limit comes one. -/
theorem rolling_succ (positive : 0 < limit) (turn : Nat) :
    rolling limit (turn + 1) =
      if rolling limit turn = limit then 1 else rolling limit turn + 1 := by
  cases turn with
  | zero =>
    rw [rolling, rolling, Nat.zero_mod, if_neg (Nat.ne_of_lt positive)]
  | succ turn =>
    have below := Nat.mod_lt turn positive
    have apart : turn + 1 = limit * (turn / limit) + (turn % limit + 1) := by
      rw [← Nat.add_assoc, Nat.div_add_mod]
    by_cases last : rolling limit (turn + 1) = limit
    · rw [if_pos last]
      simp only [rolling] at last ⊢
      rw [apart, Nat.mul_add_mod, last, Nat.mod_self]
    · rw [if_neg last]
      simp only [rolling] at last ⊢
      rw [apart, Nat.mul_add_mod, Nat.mod_eq_of_lt (by omega)]

/-- The same number at two turns means that all the others were taken between them. -/
theorem turns_of_rolling_eq {first second : Nat} (begun : 0 < first) (onward : first < second)
    (same : rolling limit first = rolling limit second) : limit ≤ second - first := by
  obtain ⟨first, rfl⟩ := Nat.exists_eq_succ_of_ne_zero (Nat.ne_of_gt begun)
  obtain ⟨second, rfl⟩ := Nat.exists_eq_succ_of_ne_zero (Nat.ne_of_gt (Nat.lt_trans begun onward))
  have congruent : first % limit = second % limit := Nat.succ.inj same
  have divides : limit ∣ second - first :=
    (Nat.modEq_iff_dvd' (Nat.le_of_lt (Nat.succ_lt_succ_iff.mp onward))).mp congruent
  rw [Nat.succ_sub_succ]
  exact Nat.le_of_dvd (by omega) divides

end BallyOS.Library
