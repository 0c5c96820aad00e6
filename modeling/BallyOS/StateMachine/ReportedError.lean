import BallyOS.StateMachine.Machine

/-! Whether a reported error stands. `reportError` stores without the mutex, so
the other mover may be between its load and its store; it then stores over the
error what it computed from an older state. -/
namespace BallyOS.StateMachine
open Library

/-- A call that may still store another state over an error reported now. -/
def Call.Overwrites : Call → Prop
  | loaded active => active ≠ .error
  | computed active nextState => active ≠ .error ∧ nextState ≠ .error
  | _ => False

/-- An error is reported only while no transition from another state is under way. -/
def ReportsAlone (world : World) : Event → Prop
  | .reportError _ => ∀ mover, ¬(world.calls mover).Overwrites
  | _ => True

/-- A reported error stands, and nothing is about to be stored over it. -/
structure Stands (world : World) : Prop where
  current : world.reported = true → world.currentState = .error
  quiet : world.reported = true → ∀ mover, ¬(world.calls mover).Overwrites

/-- A mover that goes to a harmless call leaves no new danger behind. -/
private theorem stands_goto {world : World} (stands : Stands world)
    (harmless : world.reported = true → ¬call.Overwrites) : Stands (world.goto mover call) where
  current := stands.current
  quiet kept := by
    refine (forall_update fun _ (now : Call) => ¬now.Overwrites).mpr ⟨harmless kept, ?_⟩
    exact fun other _ => stands.quiet kept other

private theorem stands_step (stands : Stands world) (alone : ReportsAlone world event)
    (stepped : step world event = some next) : Stands next := by
  cases moved_of_step stepped with
  | taken mover | gave mover | gaveUp mover =>
    exact stands_goto ⟨stands.current, stands.quiet⟩ fun _ => id
  | refused mover | undefined mover | threw mover =>
    exact stands_goto stands fun _ => id
  | loaded mover =>
    exact stands_goto stands fun kept other => other (stands.current kept)
  | returned mover active nextState here =>
    refine stands_goto stands fun kept => ?_
    have before := stands.quiet kept mover
    rw [here] at before
    exact fun overwrites => before overwrites.1
  | stored mover active nextState here =>
    refine stands_goto ⟨fun kept => ?_, fun kept => ?_⟩ fun _ => id
    · simp only [Bool.and_eq_true, decide_eq_true_eq] at kept
      have before := stands.quiet kept.1 mover
      rw [here] at before
      by_contra other
      exact before ⟨kept.2, other⟩
    · simp only [Bool.and_eq_true] at kept
      exact stands.quiet kept.1
  | reported mover reports here =>
    refine stands_goto ⟨fun _ => rfl, fun _ => alone⟩ fun _ => ?_
    split
    · exact id
    · exact id

/-- A computed transition from another state than ERROR replaces the error. -/
private theorem stored_over {world : World} (reported : world.reported = true)
    (here : world.calls mover = .computed active nextState) (from_other : active ≠ .error)
    (to_other : nextState ≠ .error) : ∃ finish, step world (.store mover) = some finish ∧
      finish.reported = true ∧ finish.currentState ≠ .error := by
  have stepped : step world (.store mover) = some ({ world with
      currentState := nextState
      reported := world.reported && decide (active ≠ StateName.error) }.goto mover .stored) := by
    simp only [step, here]
  exact ⟨_, stepped, by simp [reported, from_other], to_other⟩

/-- The transition under way when an error is reported can go on and replace it. -/
theorem overwritten_report {world next : World} {mover : Mover}
    (stepped : step world (.reportError mover) = some next)
    (overwrites : (world.calls other).Overwrites) :
    ∃ later finish, run step next later = some finish ∧
      finish.reported = true ∧ finish.currentState ≠ .error := by
  obtain ⟨reported, same⟩ : next.reported = true ∧ next.calls other = world.calls other := by
    cases moved_of_step stepped with
    | reported mover reports here =>
      refine ⟨rfl, Function.update_of_ne ?_ _ _⟩
      rintro rfl
      rw [here] at overwrites
      exact overwrites
  rw [← same] at overwrites
  cases call : next.calls other with
  | loaded active =>
    rw [call] at overwrites
    have returned : step next (.callback other (some .wait)) =
        some (next.goto other (.computed active .wait)) := by
      simp only [step, call]
    have kept : (next.goto other (.computed active .wait)).reported = true := reported
    obtain ⟨finish, stored, lost⟩ :=
      stored_over kept (Function.update_self _ _ _) overwrites (by decide)
    exact ⟨[.callback other (some .wait), .store other], finish,
      run_cons.mpr ⟨_, returned, run_cons.mpr ⟨finish, stored, rfl⟩⟩, lost⟩
  | computed active nextState =>
    rw [call] at overwrites
    obtain ⟨finish, stored, lost⟩ := stored_over reported call overwrites.1 overwrites.2
    exact ⟨[.store other], finish, run_cons.mpr ⟨finish, stored, rfl⟩, lost⟩
  | idle | locked | stored | failing | reporting =>
    rw [call] at overwrites
    exact overwrites.elim

/-- A reported error stands in every run that reports errors between
transitions; any other report can be lost in the steps that follow it. -/
theorem reported_error_stands {world : World} (bootState : StateName)
    (defined : Mover → StateName → Bool)
    (ran : run step (start bootState defined) events = some world) :
    (Along step ReportsAlone (start bootState defined) events →
      world.reported = true → world.currentState = .error) ∧
    ∀ mover next, step world (.reportError mover) = some next →
      ¬ReportsAlone world (.reportError mover) →
        ∃ later finish, run step next later = some finish ∧
          finish.reported = true ∧ finish.currentState ≠ .error := by
  refine ⟨fun meets kept => ?_, fun mover next stepped crowded => ?_⟩
  · have first : Stands (start bootState defined) :=
      ⟨fun never => absurd never (by simp [start]), fun never => absurd never (by simp [start])⟩
    have stands : Stands world :=
      run_invariant_along (fun held alone stepped => stands_step held alone stepped)
        first meets ran
    exact stands.current kept
  · simp only [ReportsAlone, not_forall, not_not] at crowded
    obtain ⟨other, overwrites⟩ := crowded
    exact overwritten_report stepped overwrites

/-- Every state but NONE has both callbacks. -/
def allDefined (_ : Mover) (state : StateName) : Bool := verifyState state

/-- One whole transition of a mover. -/
def transition (mover : Mover) (nextState : StateName) : List Event :=
  [.take mover, .load mover, .callback mover (some nextState), .store mover, .give mover]

/-- DEBUG's action throws and both errors are reported before `next` looks at
the state, which it finds to be ERROR. -/
def keptErrorTrace : List Event :=
  transition .run .wait ++ transition .next .debug ++
    [.take .run, .load .run, .callback .run none, .give .run, .reportError .run,
      .reportError .run, .take .next, .load .next]

theorem error_of_keptErrorTrace_stands : ∃ world,
    run step (start .setup allDefined) keptErrorTrace = some world ∧
    world.calls .next = .loaded .error ∧
    (world.reported = true → world.currentState = .error) := by
  have ran : run step (start .setup allDefined) keptErrorTrace = some _ := rfl
  have meets : Along step ReportsAlone (start .setup allDefined) keptErrorTrace := by
    refine along_of_step trivial rfl (along_of_step trivial rfl (along_of_step trivial rfl ?_))
    refine along_of_step trivial rfl (along_of_step trivial rfl (along_of_step trivial rfl ?_))
    refine along_of_step trivial rfl (along_of_step trivial rfl (along_of_step trivial rfl ?_))
    refine along_of_step trivial rfl (along_of_step trivial rfl (along_of_step trivial rfl ?_))
    refine along_of_step trivial rfl (along_of_step trivial rfl ?_)
    refine along_of_step (fun mover => by cases mover <;> exact id) rfl ?_
    refine along_of_step (fun mover => by cases mover <;> exact id) rfl ?_
    exact along_of_step trivial rfl (along_of_step trivial rfl trivial)
  exact ⟨_, ran, rfl, (reported_error_stands .setup allDefined ran).1 meets⟩

/-- DEBUG's action throws; `next` loads DEBUG before the error is reported and
stores it after. -/
def lostErrorTrace : List Event :=
  transition .run .wait ++ transition .next .debug ++
    [.take .run, .load .run, .callback .run none, .give .run, .take .next, .load .next,
      .callback .next (some .debug), .reportError .run, .reportError .run, .store .next]

/-- The robot is in DEBUG again, with two errors reported and none observed. -/
theorem reported_error_is_lost : ¬∀ events world,
    run step (start .setup allDefined) events = some world →
      world.reported = true → world.currentState = .error := by
  intro every
  exact absurd (every lostErrorTrace _ rfl rfl) (by decide)

end BallyOS.StateMachine
