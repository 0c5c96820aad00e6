/-! A periodic schedule that is looked at now and then. An occurrence is due at
`next`; looking a whole period late drops what went by and starts anew, looking
less late keeps the phase. -/
namespace BallyOS.Library

structure Cadence where
  next : Nat
  fired : Nat := 0
  skipped : Nat := 0

namespace Cadence

/-- The first occurrence is one period away. -/
def start (period now : Nat) : Cadence := ⟨now + period, 0, 0⟩

def look (period now : Nat) (cadence : Cadence) : Cadence :=
  if now < cadence.next then cadence
  else if period ≤ now - cadence.next then
    ⟨now + period, cadence.fired + 1, cadence.skipped + (now - cadence.next) / period⟩
  else ⟨cadence.next + period, cadence.fired + 1, cadence.skipped⟩

/-- Everything that was due is used up, and no occurrence was used that time has
not brought: `first` is when the schedule started, `last` the latest look. -/
structure Within (period first last : Nat) (cadence : Cadence) : Prop where
  later : last < cadence.next
  near : cadence.next ≤ last + period
  used : first + period * (cadence.fired + cadence.skipped + 1) ≤ cadence.next

theorem within_start (positive : 0 < period) (now : Nat) :
    Within period now now (start period now) where
  later := Nat.lt_add_of_pos_right positive
  near := Nat.le_refl _
  used := by simp [start]

theorem within_look {cadence : Cadence} (positive : 0 < period)
    (within : Within period first last cadence) (onward : last ≤ now) :
    Within period first now (cadence.look period now) := by
  obtain ⟨later, near, used⟩ := within
  unfold look
  split
  · rename_i early
    exact ⟨early, by omega, used⟩
  rename_i due
  split
  · rename_i late
    refine ⟨Nat.lt_add_of_pos_right positive, Nat.le_refl _, ?_⟩
    have missed : period * ((now - cadence.next) / period) ≤ now - cadence.next :=
      Nat.mul_div_le ..
    have count : period * (cadence.fired + 1 + (cadence.skipped +
        (now - cadence.next) / period) + 1) =
        period * (cadence.fired + cadence.skipped + 1) +
          (period + period * ((now - cadence.next) / period)) := by
      generalize (now - cadence.next) / period = missed
      have regroup : cadence.fired + 1 + (cadence.skipped + missed) + 1 =
          cadence.fired + cadence.skipped + 1 + (1 + missed) := by omega
      rw [regroup, Nat.mul_add, Nat.mul_add period 1, Nat.mul_one]
    dsimp only
    omega
  · rename_i punctual
    refine ⟨?_, ?_, ?_⟩
    · dsimp only
      omega
    · dsimp only
      omega
    · have count : period * (cadence.fired + 1 + cadence.skipped + 1) =
          period * (cadence.fired + cadence.skipped + 1) + period := by
        rw [← Nat.mul_succ]
        congr 1
        omega
      dsimp only
      omega

/-- What is used up is at most the number of whole periods gone by. -/
theorem used_le {cadence : Cadence} (positive : 0 < period)
    (within : Within period first last cadence) (now : Nat) (onward : last ≤ now) :
    cadence.fired + cadence.skipped ≤ (now - first) / period := by
  obtain ⟨-, near, used⟩ := within
  rw [Nat.le_div_iff_mul_le positive]
  have count : period * (cadence.fired + cadence.skipped + 1) =
      (cadence.fired + cadence.skipped) * period + period := by
    rw [Nat.mul_succ, Nat.mul_comm]
  omega

/-- Every period that is over has been looked into at least once. -/
def Attended (period first : Nat) (looks : List Nat) (last : Nat) : Prop :=
  ∀ count, first + period * (count + 1) ≤ last →
    ∃ look ∈ looks, first + period * count ≤ look ∧ look < first + period * (count + 1)

/-- The schedule is still in the phase it began in, and has dropped nothing. -/
def Punctual (period first : Nat) (cadence : Cadence) : Prop :=
  cadence.skipped = 0 ∧ cadence.next = first + period * (cadence.fired + 1)

theorem punctual_start (period now : Nat) : Punctual period now (start period now) :=
  ⟨rfl, by simp [start]⟩

/-- A look later than all others attends to no earlier period. -/
theorem attended_of_append {looks : List Nat}
    (attended : Attended period first (looks ++ [now]) now) (onward : last ≤ now) :
    Attended period first looks last := by
  intro count over_
  obtain ⟨look, member, since, before⟩ := attended count (Nat.le_trans over_ onward)
  rw [List.mem_append, List.mem_singleton] at member
  obtain member | rfl := member
  · exact ⟨look, member, since, before⟩
  · omega

theorem punctual_look {cadence : Cadence} {looks : List Nat}
    (within : Within period first last cadence) (punctual : Punctual period first cadence)
    (sorted : ∀ look ∈ looks, look ≤ last)
    (attended : Attended period first (looks ++ [now]) now) :
    Punctual period first (cadence.look period now) := by
  obtain ⟨dropped, phase⟩ := punctual
  have grown : period * (cadence.fired + 1 + 1) = period * (cadence.fired + 1) + period :=
    Nat.mul_succ ..
  unfold look
  split
  · exact ⟨dropped, phase⟩
  rename_i due
  split
  · -- the period after the one due is over, and nobody has looked into it
    rename_i late
    have later := within.later
    obtain ⟨look, member, since, before⟩ := attended (cadence.fired + 1) (by omega)
    rw [List.mem_append, List.mem_singleton] at member
    obtain member | rfl := member
    · have := sorted look member
      omega
    · omega
  · refine ⟨dropped, ?_⟩
    dsimp only
    omega

/-- In phase, every period gone by has fired once. -/
theorem fired_of_punctual {cadence : Cadence} (positive : 0 < period)
    (within : Within period first last cadence) (punctual : Punctual period first cadence) :
    cadence.fired = (last - first) / period := by
  have least := used_le positive within last (Nat.le_refl last)
  rw [punctual.1, Nat.add_zero] at least
  have later := within.later
  rw [punctual.2] at later
  have ahead : 0 < period * (cadence.fired + 1) := Nat.mul_pos positive (Nat.succ_pos _)
  have bound : last - first < (cadence.fired + 1) * period := by
    rw [Nat.mul_comm]
    omega
  exact Nat.le_antisymm least (Nat.le_of_lt_succ ((Nat.div_lt_iff_lt_mul positive).mpr bound))

end Cadence

end BallyOS.Library
