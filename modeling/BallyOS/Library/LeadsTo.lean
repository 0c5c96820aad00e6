import BallyOS.Library.Run

/-! Endless runs of a machine and what they lead to. A property of the times of a run leads
to another when that comes at some time from then on. -/
namespace BallyOS.Library

/-- A run without an end: the state at each time and the event that is taken there. -/
structure Endless {State Event : Type} (step : Machine State Event) where
  states : Nat → State
  events : Nat → Event
  steps : ∀ n, step (states n) (events n) = some (states (n + 1))

def LeadsTo (p q : Nat → Prop) : Prop := ∀ n, p n → ∃ m, n ≤ m ∧ q m

def Often (p : Nat → Prop) : Prop := ∀ n, ∃ m, n ≤ m ∧ p m

variable {p q r help : Nat → Prop}

theorem LeadsTo.trans (first : LeadsTo p q) (second : LeadsTo q r) : LeadsTo p r := by
  intro n here
  obtain ⟨m, later, there⟩ := first n here
  obtain ⟨k, after, done⟩ := second m there
  exact ⟨k, Nat.le_trans later after, done⟩

theorem LeadsTo.or (first : LeadsTo p r) (second : LeadsTo q r) :
    LeadsTo (fun n => p n ∨ q n) r := by
  intro n here
  rcases here with here | here
  · exact first n here
  · exact second n here

theorem leadsTo_of_imp (same : ∀ n, p n → q n) : LeadsTo p q :=
  fun n here => ⟨n, Nat.le_refl n, same n here⟩

/-- A step on. -/
theorem LeadsTo.of_next (first : LeadsTo p fun n => q (n + 1)) : LeadsTo p q := by
  intro n here
  obtain ⟨m, later, there⟩ := first n here
  exact ⟨m + 1, Nat.le_succ_of_le later, there⟩

theorem Often.leadsTo (often : Often q) : LeadsTo p q := fun n _ => often n

/-- What lasts until the aim is reached, and reaches it when it is helped. -/
theorem leadsTo_of_helps (keeps : ∀ n, p n → q n ∨ p (n + 1))
    (helps : ∀ n, p n → help n → q n) (helped : LeadsTo p help) : LeadsTo p q := by
  intro n here
  obtain ⟨m, later, helping⟩ := helped n here
  obtain ⟨d, rfl⟩ := Nat.exists_eq_add_of_le later
  clear helped later
  induction d generalizing n with
  | zero => exact ⟨n, Nat.le_refl n, helps n here helping⟩
  | succ d ih =>
    rcases keeps n here with reached | lasts
    · exact ⟨n, Nat.le_refl n, reached⟩
    · have there : help (n + 1 + d) := by
        rw [Nat.add_right_comm]
        exact helping
      obtain ⟨m, later, reached⟩ := ih (n + 1) lasts there
      exact ⟨m, Nat.le_of_succ_le later, reached⟩

/-- A step reaches the aim, or is no help and leaves what lasts as it is. -/
theorem leadsTo_of_step (steps : ∀ n, p n → q n ∨ ¬help n ∧ p (n + 1)) (helped : LeadsTo p help) :
    LeadsTo p q := by
  refine leadsTo_of_helps (fun n here => (steps n here).imp_right And.right) ?_ helped
  intro n here helping
  rcases steps n here with reached | ⟨idle, -⟩
  · exact reached
  · exact absurd helping idle

/-- What lasts as long as the aim is not reached leads to it, if lasting for ever would. -/
theorem leadsTo_of_absurd (keeps : ∀ n, p n → q n ∨ p (n + 1))
    (endless : ∀ n, (∀ m, n ≤ m → p m) → ∃ m, n ≤ m ∧ q m) : LeadsTo p q := by
  intro n here
  refine Classical.byContradiction fun never => never (endless n fun m later => ?_)
  induction later with
  | refl => exact here
  | step later ih =>
    rcases keeps _ ih with reached | lasts
    · exact absurd ⟨_, later, reached⟩ never
    · exact lasts

end BallyOS.Library
