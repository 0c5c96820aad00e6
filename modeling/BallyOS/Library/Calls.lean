import Mathlib.Logic.Function.Basic

/-! What several tasks are doing, one call each. A lock, a latch or a role is
held by the calls that are past its entry and not yet past its exit, so mutual
exclusion is that at most one task is at such a call. -/
namespace BallyOS.Library

variable {Task Call : Type}

/-- At most one task is at a call with the property. -/
def Sole (holds : Call → Prop) (calls : Task → Call) : Prop :=
  ∀ first second, holds (calls first) → holds (calls second) → first = second

variable [DecidableEq Task]

/-- After one task moved, a property of every task is one of the moved task
and of the others as they were. -/
theorem forall_update {calls : Task → Call} (property : Task → Call → Prop) :
    (∀ task, property task (Function.update calls moved call task)) ↔
      property moved call ∧ ∀ task, task ≠ moved → property task (calls task) := by
  constructor
  · intro every
    refine ⟨by simpa using every moved, fun task other => ?_⟩
    simpa [Function.update_of_ne other] using every task
  · rintro ⟨here, others⟩ task
    by_cases same : task = moved
    · subst same
      simpa using here
    · simpa [Function.update_of_ne same] using others task same

/-- The only task that may have begun to hold is one that already held. -/
theorem sole_update_of_holds {holds : Call → Prop} {calls : Task → Call}
    (sole : Sole holds calls) (before : holds call → holds (calls moved)) :
    Sole holds (Function.update calls moved call) := by
  have held : ∀ task, holds (Function.update calls moved call task) → holds (calls task) :=
    (forall_update fun task now => holds now → holds (calls task)).mpr
      ⟨before, fun _ _ holding => holding⟩
  exact fun first second one two => sole first second (held first one) (held second two)

/-- A task may begin to hold when none does. -/
theorem sole_update_of_none {holds : Call → Prop} {calls : Task → Call}
    (none : ∀ task, ¬holds (calls task)) :
    Sole holds (Function.update calls moved call) := by
  have only : ∀ task, holds (Function.update calls moved call task) → task = moved :=
    (forall_update fun task now => holds now → task = moved).mpr
      ⟨fun _ => rfl, fun task _ holding => absurd holding (none task)⟩
  exact fun first second one two => (only first one).trans (only second two).symm

end BallyOS.Library
