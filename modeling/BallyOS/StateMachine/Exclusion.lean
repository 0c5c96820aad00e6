import BallyOS.StateMachine.Machine

/-! What the transition mutex does give: one transition at a time, and while it
is under way the state is the one it loaded, unless an error was reported. -/
namespace BallyOS.StateMachine
open Library

/-- The call is between its take and its give. -/
def Call.Holds : Call → Prop
  | idle | reporting _ => False
  | _ => True

/-- The state a transition under way was loaded from. -/
def Call.active : Call → Option StateName
  | loaded activeState | computed activeState _ => some activeState
  | _ => none

private theorem Call.holds_of_active {call : Call} (under : call.active = some activeState) :
    call.Holds := by
  cases call with
  | loaded | computed => trivial
  | idle | locked | stored | failing | reporting => simp [active] at under

structure Exclusive (world : World) : Prop where
  owner : ∀ mover, (world.calls mover).Holds → world.mutex = some mover
  loaded : ∀ mover activeState, (world.calls mover).active = some activeState →
    world.currentState = activeState ∨ world.currentState = .error

/-- While one mover is between take and give the other is not. -/
theorem Exclusive.other_free {world : World} (exclusive : Exclusive world)
    (holds : (world.calls mover).Holds) (other : task ≠ mover) : ¬(world.calls task).Holds := by
  intro both
  have same := (exclusive.owner task both).symm.trans (exclusive.owner mover holds)
  exact other (Option.some.inj same)

/-- A move that leaves the mutex and the state alone. -/
private theorem exclusive_goto {world : World} (exclusive : Exclusive world)
    (held : call.Holds → (world.calls mover).Holds)
    (same : ∀ activeState, call.active = some activeState →
      world.currentState = activeState ∨ world.currentState = .error) :
    Exclusive (world.goto mover call) where
  owner := (forall_update fun task (now : Call) => now.Holds → world.mutex = some task).mpr
    ⟨fun holds => exclusive.owner mover (held holds), fun task _ => exclusive.owner task⟩
  loaded := (forall_update fun _ (now : Call) => ∀ activeState, now.active = some activeState →
      world.currentState = activeState ∨ world.currentState = .error).mpr
    ⟨same, fun task _ => exclusive.loaded task⟩

/-- Giving the mutex back, at a call that no longer holds it. -/
private theorem exclusive_give {world : World} (exclusive : Exclusive world)
    (here : (world.calls mover).Holds) (gave : ¬call.Holds) :
    Exclusive ({ world with mutex := none }.goto mover call) where
  owner := by
    refine (forall_update fun task (now : Call) => now.Holds → none = some task).mpr
      ⟨fun holds => absurd holds gave, fun task other holds => ?_⟩
    exact absurd holds (exclusive.other_free here other)
  loaded := by
    refine (forall_update fun _ (now : Call) => ∀ activeState, now.active = some activeState →
      world.currentState = activeState ∨ world.currentState = .error).mpr ⟨?_, ?_⟩
    · exact fun activeState under => absurd (Call.holds_of_active under) gave
    · exact fun task _ => exclusive.loaded task

theorem exclusive_step (exclusive : Exclusive world) (stepped : step world event = some next) :
    Exclusive next := by
  cases moved_of_step stepped with
  | taken mover here free =>
    constructor
    · refine (forall_update fun task (now : Call) => now.Holds → some mover = some task).mpr
        ⟨fun _ => rfl, fun task _ holds => ?_⟩
      have owned := exclusive.owner task holds
      rw [free] at owned
      contradiction
    · refine (forall_update fun _ (now : Call) => ∀ activeState, now.active = some activeState →
        world.currentState = activeState ∨ world.currentState = .error).mpr ⟨?_, ?_⟩
      · intro activeState under
        contradiction
      · exact fun task _ => exclusive.loaded task
  | refused mover here =>
    refine exclusive_goto exclusive (fun holds => holds.elim) fun activeState under => ?_
    contradiction
  | loaded mover here =>
    refine exclusive_goto exclusive (fun _ => by rw [here]; trivial) fun activeState under => ?_
    exact Or.inl (Option.some.inj under)
  | undefined mover here =>
    refine exclusive_goto exclusive (fun _ => by rw [here]; trivial) fun activeState under => ?_
    contradiction
  | returned mover active nextState here =>
    refine exclusive_goto exclusive (fun _ => by rw [here]; trivial) fun activeState under => ?_
    apply exclusive.loaded mover activeState
    rw [here]
    exact under
  | threw mover active here =>
    refine exclusive_goto exclusive (fun _ => by rw [here]; trivial) fun activeState under => ?_
    contradiction
  | stored mover active nextState here =>
    have holds : (world.calls mover).Holds := by
      rw [here]
      trivial
    constructor
    · exact (forall_update fun task (now : Call) => now.Holds → world.mutex = some task).mpr
        ⟨fun _ => exclusive.owner mover holds, fun task _ => exclusive.owner task⟩
    · refine (forall_update fun _ (now : Call) => ∀ activeState, now.active = some activeState →
        nextState = activeState ∨ nextState = .error).mpr ⟨?_, ?_⟩
      · intro activeState under
        contradiction
      · intro task other activeState under
        exact absurd (Call.holds_of_active under) (exclusive.other_free holds other)
  | gave mover here =>
    exact exclusive_give exclusive (by rw [here]; trivial) id
  | gaveUp mover reports here =>
    exact exclusive_give exclusive (by rw [here]; trivial) id
  | reported mover reports here =>
    have quiet : ∀ call, call = .idle ∨ (∃ left, call = .reporting left) →
        Exclusive ({ world with currentState := .error, reported := true }.goto mover call) := by
      intro call ended
      have gone : ¬call.Holds ∧ call.active = none := by
        rcases ended with rfl | ⟨left, rfl⟩
        · exact ⟨id, rfl⟩
        · exact ⟨id, rfl⟩
      refine ⟨?_, fun _ _ _ => Or.inr rfl⟩
      exact (forall_update fun task (now : Call) => now.Holds → world.mutex = some task).mpr
        ⟨fun holds => absurd holds gone.1, fun task _ => exclusive.owner task⟩
    apply quiet _
    split
    · exact Or.inl rfl
    · exact Or.inr ⟨reports, rfl⟩

theorem exclusive_start (bootState : StateName) (defined : Mover → StateName → Bool) :
    Exclusive (start bootState defined) where
  owner _ holds := holds.elim
  loaded _ _ under := by contradiction

end BallyOS.StateMachine
