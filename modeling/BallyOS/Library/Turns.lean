import Mathlib.Data.List.Basic

/-! Taking turns. The indices below `n` that are wanted come up in order, over and over; who
steps through the indices, skips what is not wanted and starts again at the end gives every
wanted one its turn. -/
namespace BallyOS.Library

def turns (wanted : Nat → Bool) (n : Nat) : List Nat := (List.range n).filter wanted

/-- What was taken is what came up: the indices of a round, and the same again. -/
def InTurn (wanted : Nat → Bool) (n : Nat) (taken : List Nat) : Prop :=
  ∀ k index, taken[k]? = some index →
    (turns wanted n)[k % (turns wanted n).length]? = some index

/-- The next turn is the first that comes up from `index` on, `count` having been taken. -/
def UpNext (wanted : Nat → Bool) (n index count : Nat) : Prop :=
  index ≤ n ∧ ∃ rounds, count = rounds * (turns wanted n).length + (turns wanted index).length

/-- A step that leads to `index` and took an index, if any, took what came up. -/
def TakesTurn (wanted : Nat → Bool) (n index count : Nat) : Option Nat → Prop
  | none => UpNext wanted n index count
  | some found => (turns wanted n)[count % (turns wanted n).length]? = some found ∧
      UpNext wanted n index (count + 1)

variable {wanted : Nat → Bool} {n : Nat}

private theorem turns_succ (wanted : Nat → Bool) (n : Nat) :
    turns wanted (n + 1) = turns wanted n ++ if wanted n then [n] else [] := by
  unfold turns
  rw [List.range_succ, List.filter_append, List.filter_singleton, Bool.cond_eq_ite]

private theorem turns_prefix (wanted : Nat → Bool) (below : m ≤ n) : turns wanted m <+: turns wanted
    n := by
  induction below with
  | refl => exact List.prefix_rfl
  | step _ ih =>
    rw [turns_succ]
    exact ih.trans (List.prefix_append _ _)

private theorem turns_skip (below : m ≤ n) (skipped : ∀ i, m ≤ i → i < n → wanted i = false) :
    turns wanted n = turns wanted m := by
  induction below with
  | refl => rfl
  | step below ih =>
    rw [turns_succ, skipped _ below (Nat.lt_succ_self _), if_neg Bool.false_ne_true,
      List.append_nil]
    exact ih fun i onward before => skipped i onward (Nat.lt_succ_of_lt before)

private theorem turns_getElem (below : index < n) (chosen : wanted index = true) :
    (turns wanted n)[(turns wanted index).length]? = some index := by
  obtain ⟨rest, whole⟩ := turns_prefix wanted (Nat.succ_le_of_lt below)
  rw [← whole, turns_succ, if_pos chosen, List.append_assoc, List.getElem?_append_right
    (Nat.le_refl _), Nat.sub_self]
  rfl

theorem UpNext.first (wanted : Nat → Bool) (n : Nat) : UpNext wanted n 0 0 :=
  ⟨Nat.zero_le n, 0, (Nat.zero_mul _).symm⟩

/-- The first wanted index from there on has its turn. -/
theorem UpNext.take (next : UpNext wanted n index count) (onward : index ≤ found)
    (below : found < n) (skipped : ∀ i, index ≤ i → i < found → wanted i = false)
    (chosen : wanted found = true) :
    TakesTurn wanted n (found + 1) count (some found) := by
  obtain ⟨_, rounds, rfl⟩ := next
  have turn := turns_getElem below chosen
  have position := turns_skip onward skipped
  have within : (turns wanted found).length < (turns wanted n).length :=
    (List.getElem?_eq_some_iff.mp turn).1
  rw [← position]
  constructor
  · rw [Nat.mul_add_mod_self_right, Nat.mod_eq_of_lt within]
    exact turn
  · refine ⟨below, rounds, ?_⟩
    rw [turns_succ, if_pos chosen, List.length_append, List.length_singleton, Nat.add_assoc]

/-- With nothing wanted to the end, it starts again. -/
theorem UpNext.wrap (next : UpNext wanted n index count)
    (skipped : ∀ i, index ≤ i → i < n → wanted i = false) : UpNext wanted n 0 count := by
  obtain ⟨below, rounds, rfl⟩ := next
  refine ⟨Nat.zero_le n, rounds + 1, ?_⟩
  rw [turns_skip below skipped, Nat.succ_mul]
  rfl

end BallyOS.Library
