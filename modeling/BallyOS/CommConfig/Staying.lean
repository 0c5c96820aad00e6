import BallyOS.CommConfig.Menu
import BallyOS.States.DebugGate

/-! Whether the robot stays in COMM_CONFIG. No row of the button table leaves it and
its action returns it, so only a request and a reported error lead out. -/
namespace BallyOS.CommConfig
open Library StateMachine States

/-- No request for another state is let through, and no error is reported. -/
def Undisturbed (robot : Robot) : States.Event → Prop
  | .readLock _ => robot.machine.calls .next = .loaded .commConfig → robot.locked = false →
      ∀ target, robot.progress = .requested (some target) → target = .commConfig
  | .machine (.reportError _) => robot.machine.currentState ≠ .commConfig
  | _ => True

/-- In COMM_CONFIG, `next` is not about to store another state. -/
structure Staying (robot : Robot) : Prop where
  exclusive : Exclusive robot.machine
  acted : ∀ mover, Acted mover (robot.machine.calls mover)
  held : robot.machine.currentState = .commConfig → ∀ nextState, robot.held = some nextState →
    nextState = .commConfig

private theorem buttonTarget_commConfig (buttons : UInt8) :
    buttonTarget .commConfig buttons = .commConfig := by
  simp [buttonTarget, transitionTable]

/-- A step that leaves the state alone and sends `next` nowhere but where it was. -/
structure Stays (before after : Robot) : Prop where
  current : after.machine.currentState = before.machine.currentState
  held : before.machine.currentState = .commConfig → ∀ nextState, after.held = some nextState →
    before.held = some nextState ∨ nextState = .commConfig

private theorem staying_of_stays {before after : Robot} (staying : Staying before)
    (stays : Stays before after) (exclusive : Exclusive after.machine)
    (acted : ∀ mover, Acted mover (after.machine.calls mover)) : Staying after where
  exclusive := exclusive
  acted := acted
  held := by
    intro here nextState goes
    rw [stays.current] at here
    obtain same | arrives := stays.held here nextState goes
    · exact staying.held here nextState same
    · exact arrives

private theorem stays_beside {before after : Robot} (machine : after.machine = before.machine)
    (progress : after.progress = before.progress) : Stays before after := by
  refine ⟨by rw [machine], fun _ nextState goes => .inl ?_⟩
  rw [Robot.held, machine, progress] at goes
  exact goes

/-! ### What goes on beside the movers -/

private theorem exposeStep_beside {robot next : Robot} {event : States.Event}
    (stepped : robot.exposeStep event = some next) :
    next.machine = robot.machine ∧ next.progress = robot.progress := by
  cases event with
  | exposeCheck | exposeAllowed answers | exposeMount answers | exposeInstall answers
  | exposeActivate =>
    simp only [Robot.exposeStep, Option.ite_none_right_eq_some, Option.some.injEq] at stepped
    obtain ⟨-, rfl⟩ := stepped
    exact ⟨rfl, rfl⟩
  | _ => contradiction

private theorem storageStep_beside {robot next : Robot} {event : States.Event}
    (stepped : robot.storageStep event = some next) :
    next.machine = robot.machine ∧ next.progress = robot.progress := by
  cases event with
  | processStorage reclaimPressed synced answer syncedReturn =>
    simp only [Robot.storageStep, Option.ite_none_right_eq_some, Option.some.injEq] at stepped
    obtain ⟨-, rfl⟩ := stepped
    exact ⟨rfl, rfl⟩
  | reclaim | storageEvent | hostConnection | ejected =>
    cases stepped
    exact ⟨rfl, rfl⟩
  | _ => contradiction

private theorem uploadStep_beside {robot next : Robot} {event : States.Event}
    (stepped : robot.uploadStep event = some next) :
    next.machine = robot.machine ∧ next.progress = robot.progress := by
  cases event with
  | otaCheck | otaStart | otaServe | uploadStart | uploadEnd =>
    simp only [Robot.uploadStep, Option.ite_none_right_eq_some, Option.some.injEq] at stepped
    obtain ⟨-, rfl⟩ := stepped
    exact ⟨rfl, rfl⟩
  | otaCancel =>
    simp only [Robot.uploadStep, Option.ite_none_left_eq_some, Option.some.injEq] at stepped
    obtain ⟨-, rfl⟩ := stepped
    exact ⟨rfl, rfl⟩
  | _ => contradiction

/-! ### The movers -/

/-- The lock has no part in what a mover does by itself. -/
theorem stays_of_locked {before after : Robot}
    (eased : Robot.Eased { before with locked := true } { after with locked := true }) :
    Stays before after := by
  refine ⟨eased.current, fun here nextState goes => ?_⟩
  obtain same | found := eased.held rfl nextState goes
  · exact .inl same
  · exact .inr (found.trans here)

private theorem machineStep_locked {robot next : Robot} {event : StateMachine.Event}
    (stepped : robot.machineStep event = some next) :
    { robot with locked := true }.machineStep event = some { next with locked := true } := by
  obtain ⟨moved, whole⟩ := Robot.machineStep_some stepped
  rw [whole]
  simp only [Robot.machineStep, moved, Option.map_some]

private theorem stays_machineStep {robot next : Robot} {event : StateMachine.Event}
    (quiet : Robot.Quiet event) (stepped : robot.machineStep event = some next) :
    Stays robot next :=
  stays_of_locked (Robot.eased_machineStep quiet (machineStep_locked stepped))

/-- Each check of `process_transition`, called for COMM_CONFIG, lets through what it was
given; without a request it was given COMM_CONFIG. -/
theorem stays_transition {robot next : Robot} {event : States.Event}
    (undisturbed : Undisturbed robot event)
    (here : robot.machine.calls .next = .loaded .commConfig) (returns : event ≠ .decide)
    (stepped : robot.transitionStep .commConfig event = some next) :
    next.machine = robot.machine ∧ Stays robot next := by
  have onward {after : Robot} (machine : after.machine = robot.machine)
      (target : ∀ nextState, after.progress.target.getD .commConfig = nextState →
        robot.progress.target.getD .commConfig = nextState ∨ nextState = .commConfig) :
      after.machine = robot.machine ∧ Stays robot after := by
    refine ⟨machine, by rw [machine], fun _ nextState goes => ?_⟩
    simp only [Robot.held, machine, here, storing, Option.some.injEq] at goes ⊢
    exact target nextState goes
  cases event with
  | takeRequest =>
    simp only [Robot.transitionStep] at stepped
    split at stepped
    · rename_i entered
      cases stepped
      exact onward rfl fun nextState goes => .inr goes.symm
    · contradiction
  | readLock buttons =>
    simp only [Robot.transitionStep] at stepped
    split at stepped
    · rename_i request requested
      split at stepped
      · cases stepped
        exact onward rfl fun nextState goes => .inr goes.symm
      · rename_i unlocked
        cases stepped
        refine onward rfl fun nextState goes => .inr ?_
        rw [← goes]
        cases request with
        | none => exact buttonTarget_commConfig buttons
        | some target => exact undisturbed here (Bool.eq_false_iff.mpr unlocked) target requested
    · contradiction
  | checkStorage =>
    simp only [Robot.transitionStep] at stepped
    split at stepped
    · rename_i wanted
      cases stepped
      refine onward rfl fun nextState goes => .inl ?_
      rw [wanted]
      exact goes
    · contradiction
  | checkFlashing =>
    simp only [Robot.transitionStep] at stepped
    split at stepped
    · rename_i unexposed
      cases stepped
      refine onward rfl fun nextState goes => .inl ?_
      rw [unexposed]
      exact goes
    · contradiction
  | cancelTests =>
    simp only [Robot.transitionStep] at stepped
    split at stepped
    · rename_i unflashed
      cases stepped
      refine onward rfl fun nextState goes => .inl ?_
      rw [unflashed]
      exact goes
    · contradiction
  | stopServer =>
    simp only [Robot.transitionStep] at stepped
    split at stepped
    · rename_i cancelling
      split at stepped
      · contradiction
      · cases stepped
        refine onward rfl fun nextState goes => .inl ?_
        rw [cancelling]
        exact goes
    · contradiction
  | decide => contradiction
  | _ => contradiction

/-- Whoever stores, the other mover is not in its transition. -/
theorem held_of_stored {robot : Robot} {machine : StateMachine.World}
    (exclusive : Exclusive robot.machine)
    (moved : StateMachine.step robot.machine (.store mover) = some machine) :
    { robot with machine := machine }.held = none := by
  cases moved_of_step moved with
  | stored mover active nextState here =>
    have holds : (robot.machine.calls mover).Holds := by
      rw [here]
      trivial
    cases mover with
    | next => exact congrArg (storing _) (robot.machine.goto_self .next .stored)
    | run =>
      have free := exclusive.other_free holds (by decide : Mover.next ≠ .run)
      have same : (robot.machine.goto .run .stored).calls .next = robot.machine.calls .next :=
        robot.machine.goto_other .stored (by decide)
      apply (congrArg (storing _) same).trans
      cases call : robot.machine.calls .next with
      | loaded | computed =>
        rw [call] at free
        exact absurd trivial free
      | idle | locked | stored | failing | reporting => rfl

/-- In COMM_CONFIG a mover can only store COMM_CONFIG. -/
theorem current_of_stored {robot : Robot} {machine : StateMachine.World} (staying : Staying robot)
    (moved : StateMachine.step robot.machine (.store mover) = some machine)
    (current : robot.machine.currentState = .commConfig) :
    machine.currentState = .commConfig := by
  cases moved_of_step moved with
  | stored mover active nextState here =>
    cases mover with
    | next =>
      apply staying.held current nextState
      simp only [Robot.held, here, storing]
    | run =>
      have computed : nextState = action active := staying.acted .run rfl active nextState here
      obtain same | error := staying.exclusive.loaded .run active (by rw [here]; rfl)
      · have inside : active = .commConfig := same.symm.trans current
        exact computed.trans (congrArg action inside)
      · rw [current] at error
        contradiction

private theorem ordered_of_machine {before after : Robot} (staying : Staying before)
    (same : after.machine = before.machine) :
    Exclusive after.machine ∧ ∀ mover, Acted mover (after.machine.calls mover) := by
  rw [same]
  exact ⟨staying.exclusive, staying.acted⟩

private theorem staying_store {robot after : Robot} (staying : Staying robot)
    (stepped : robot.machineStep (.store mover) = some after) (movedLocked : Bool) :
    Staying { after with movedLocked } ∧
      (robot.machine.currentState = .commConfig → after.machine.currentState = .commConfig) := by
  obtain ⟨exclusive, acted⟩ :=
    Robot.ordered_machineStep staying.exclusive staying.acted stepped (by simp)
  obtain ⟨stored, whole⟩ := Robot.machineStep_some stepped
  have unheld := held_of_stored staying.exclusive stored
  rw [← whole] at unheld
  refine ⟨⟨exclusive, acted, fun _ nextState goes => ?_⟩, current_of_stored staying stored⟩
  have none : some nextState = none := goes.symm.trans unheld
  contradiction

private theorem staying_mover {robot next : Robot} {event : StateMachine.Event}
    (staying : Staying robot) (undisturbed : Undisturbed robot (.machine event))
    (stepped : robot.moverStep event = some next) :
    Staying next ∧
      (robot.machine.currentState = .commConfig → next.machine.currentState = .commConfig) := by
  have ordered {robot' after : Robot} (same : robot'.machine = robot.machine)
      (moved : robot'.machineStep event = some after)
      (other : ∀ result, event ≠ .callback .run (some result)) :
      Exclusive after.machine ∧ ∀ mover, Acted mover (after.machine.calls mover) := by
    have before := ordered_of_machine staying same
    exact Robot.ordered_machineStep before.1 before.2 moved
      fun nextState goes => absurd goes (other nextState)
  have quietly (quiet : Robot.Quiet event) (moved : robot.machineStep event = some next)
      (other : ∀ result, event ≠ .callback .run (some result)) : Staying next ∧
        (robot.machine.currentState = .commConfig → next.machine.currentState = .commConfig) := by
    obtain ⟨exclusive, acted⟩ := ordered rfl moved other
    have stays := stays_machineStep quiet moved
    exact ⟨staying_of_stays staying stays exclusive acted, stays.current.trans⟩
  cases event with
  | callback mover result => contradiction
  | take mover => exact quietly trivial stepped (by simp)
  | takeFailed mover => exact quietly trivial stepped (by simp)
  | give mover => exact quietly trivial stepped (by simp)
  | load mover =>
    cases mover with
    | run => exact quietly rfl stepped (by simp)
    | next =>
      have entered : { robot with progress := .entered }.machineStep (.load .next) = some next :=
        stepped
      obtain ⟨exclusive, acted⟩ := ordered (by rfl) entered (by simp)
      have stays : Stays robot next :=
        stays_of_locked (Robot.eased_load (machineStep_locked entered))
      exact ⟨staying_of_stays staying stays exclusive acted, stays.current.trans⟩
  | store mover =>
    cases mover with
    | run => exact staying_store staying stepped next.movedLocked
    | next =>
      obtain ⟨after, moved, rfl⟩ := Option.map_eq_some_iff.mp stepped
      exact staying_store staying moved _
  | reportError mover =>
    have failed : ∀ {after : Robot} (movedLocked : Bool),
        robot.machineStep (.reportError mover) = some after →
          Staying { after with movedLocked } := by
      intro after movedLocked reported
      obtain ⟨exclusive, acted⟩ := ordered rfl reported (by simp)
      refine ⟨exclusive, acted, fun here => ?_⟩
      have error : after.machine.currentState = .commConfig := here
      rw [Robot.error_of_report reported] at error
      contradiction
    refine ⟨?_, fun here => absurd here undisturbed⟩
    cases mover with
    | run => exact failed next.movedLocked stepped
    | next =>
      obtain ⟨after, moved, rfl⟩ := Option.map_eq_some_iff.mp stepped
      exact failed _ moved

private theorem staying_beside {robot next : Robot} (staying : Staying robot)
    (machine : next.machine = robot.machine) (stays : Stays robot next) :
    Staying next ∧
      (robot.machine.currentState = .commConfig → next.machine.currentState = .commConfig) := by
  obtain ⟨exclusive, acted⟩ := ordered_of_machine staying machine
  exact ⟨staying_of_stays staying stays exclusive acted, stays.current.trans⟩

private theorem transitionStep_machine {robot next : Robot} {event : States.Event}
    (returns : event ≠ .decide) (stepped : robot.transitionStep activeState event = some next) :
    next.machine = robot.machine := by
  cases event with
  | takeRequest | readLock | checkStorage | checkFlashing | cancelTests | stopServer =>
    simp only [Robot.transitionStep] at stepped
    grind
  | decide => contradiction
  | _ => contradiction

private theorem staying_transition {robot next : Robot} {event : States.Event}
    (staying : Staying robot)
    (undisturbed : Undisturbed robot event)
    (here : robot.machine.calls .next = .loaded activeState) (returns : event ≠ .decide)
    (stepped : robot.transitionStep activeState event = some next) :
    Staying next ∧
      (robot.machine.currentState = .commConfig → next.machine.currentState = .commConfig) := by
  have machine := transitionStep_machine returns stepped
  by_cases current : robot.machine.currentState = .commConfig
  · obtain same | error := staying.exclusive.loaded .next activeState (by rw [here]; rfl)
    · cases same.symm.trans current
      exact staying_beside staying machine (stays_transition undisturbed here returns stepped).2
    · rw [current] at error
      contradiction
  · have elsewhere : next.machine.currentState ≠ .commConfig := by
      rw [machine]
      exact current
    obtain ⟨exclusive, acted⟩ := ordered_of_machine staying machine
    exact ⟨⟨exclusive, acted, fun here => absurd here elsewhere⟩, fun here => absurd here current⟩

/-- Undisturbed, no step of the robot leaves COMM_CONFIG. -/
theorem staying_step {robot next : Robot} {event : States.Event} (staying : Staying robot)
    (undisturbed : Undisturbed robot event) (stepped : Robot.step robot event = some next) :
    Staying next ∧
      (robot.machine.currentState = .commConfig → next.machine.currentState = .commConfig) := by
  cases event with
  | machine event => exact staying_mover staying undisturbed stepped
  | act =>
    simp only [Robot.step] at stepped
    split at stepped
    · rename_i activeState here
      obtain ⟨exclusive, acted⟩ := Robot.ordered_machineStep staying.exclusive staying.acted
        stepped fun nextState same => ⟨activeState, here, by cases same; rfl⟩
      have stays := stays_machineStep (by exact rfl) stepped
      exact ⟨staying_of_stays staying stays exclusive acted, stays.current.trans⟩
    · contradiction
  | threw mover =>
    obtain ⟨exclusive, acted⟩ := Robot.ordered_machineStep staying.exclusive staying.acted
      stepped fun nextState same => by simp at same
    have stays := stays_machineStep (by trivial) stepped
    exact ⟨staying_of_stays staying stays exclusive acted, stays.current.trans⟩
  | requestState target =>
    simp only [Robot.step, Option.ite_none_right_eq_some, Option.some.injEq] at stepped
    obtain ⟨-, rfl⟩ := stepped
    exact staying_beside staying rfl (stays_beside rfl rfl)
  | setLocked locked =>
    cases stepped
    exact staying_beside staying rfl (stays_beside rfl rfl)
  | decide =>
    simp only [Robot.step] at stepped
    split at stepped
    · rename_i activeState here
      simp only [Robot.transitionStep] at stepped
      split at stepped
      · rename_i nextState settled
        obtain ⟨exclusive, acted⟩ := Robot.ordered_machineStep staying.exclusive staying.acted
          stepped fun nextState same => by simp at same
        have eased := @Robot.eased_decide activeState nextState { robot with locked := true }
          { next with locked := true } here settled (machineStep_locked stepped)
        have stays := stays_of_locked eased
        exact ⟨staying_of_stays staying stays exclusive acted, stays.current.trans⟩
      · contradiction
    · contradiction
  | takeRequest | readLock | checkStorage | checkFlashing | cancelTests | stopServer =>
    simp only [Robot.step] at stepped
    split at stepped
    · rename_i activeState here
      exact staying_transition staying undisturbed here (by simp) stepped
    · contradiction
  | exposeCheck | exposeAllowed | exposeMount | exposeInstall | exposeActivate =>
    simp only [Robot.step] at stepped
    obtain ⟨machine, progress⟩ := exposeStep_beside stepped
    exact staying_beside staying machine (stays_beside machine progress)
  | reclaim | processStorage | storageEvent | hostConnection | ejected =>
    simp only [Robot.step] at stepped
    obtain ⟨machine, progress⟩ := storageStep_beside stepped
    exact staying_beside staying machine (stays_beside machine progress)
  | otaCheck | otaStart | otaServe | otaCancel | uploadStart | uploadEnd =>
    simp only [Robot.step] at stepped
    obtain ⟨machine, progress⟩ := uploadStep_beside stepped
    exact staying_beside staying machine (stays_beside machine progress)

/-- A step of the robot is one of the machine's at most. -/
theorem machine_of_step {robot next : Robot} {event : States.Event}
    (stepped : Robot.step robot event = some next) : next.machine = robot.machine ∨
      ∃ moved, StateMachine.step robot.machine moved = some next.machine := by
  cases event with
  | machine event =>
    refine .inr ⟨event, ?_⟩
    cases event with
    | callback mover result => contradiction
    | take | takeFailed | give => exact (Robot.machineStep_some stepped).1
    | load mover =>
      cases mover with
      | run => exact (Robot.machineStep_some stepped).1
      | next =>
        have entered : { robot with progress := .entered }.machineStep (.load .next) =
          some next := stepped
        exact (Robot.machineStep_some entered).1
    | store mover | reportError mover =>
      cases mover with
      | run => exact (Robot.machineStep_some stepped).1
      | next =>
        obtain ⟨after, moved, rfl⟩ := Option.map_eq_some_iff.mp stepped
        exact (Robot.machineStep_some moved).1
  | act =>
    simp only [Robot.step] at stepped
    split at stepped
    · exact .inr ⟨_, (Robot.machineStep_some stepped).1⟩
    · contradiction
  | threw mover => exact .inr ⟨_, (Robot.machineStep_some stepped).1⟩
  | requestState target =>
    simp only [Robot.step, Option.ite_none_right_eq_some, Option.some.injEq] at stepped
    obtain ⟨-, rfl⟩ := stepped
    exact .inl rfl
  | setLocked locked =>
    cases stepped
    exact .inl rfl
  | decide =>
    simp only [Robot.step] at stepped
    split at stepped
    · simp only [Robot.transitionStep] at stepped
      split at stepped
      · exact .inr ⟨_, (Robot.machineStep_some stepped).1⟩
      · contradiction
    · contradiction
  | takeRequest | readLock | checkStorage | checkFlashing | cancelTests | stopServer =>
    simp only [Robot.step] at stepped
    split at stepped
    · exact .inl (transitionStep_machine (by simp) stepped)
    · contradiction
  | exposeCheck | exposeAllowed | exposeMount | exposeInstall | exposeActivate =>
    simp only [Robot.step] at stepped
    exact .inl (exposeStep_beside stepped).1
  | reclaim | processStorage | storageEvent | hostConnection | ejected =>
    simp only [Robot.step] at stepped
    exact .inl (storageStep_beside stepped).1
  | otaCheck | otaStart | otaServe | otaCancel | uploadStart | uploadEnd =>
    simp only [Robot.step] at stepped
    exact .inl (uploadStep_beside stepped).1

/-- A transition is under way only from a state that was there to be loaded. -/
theorem active_of_step {robot next : Robot} {event : States.Event}
    (stepped : Robot.step robot event = some next) {mover : Mover} {state : StateName}
    (under : (next.machine.calls mover).active = some state) :
    (robot.machine.calls mover).active = some state ∨ robot.machine.currentState = state := by
  obtain same | ⟨event, moved⟩ := machine_of_step stepped
  · rw [same] at under
    exact .inl under
  generalize next.machine = machine at moved under
  have others {task : Mover} {call : Call} (here : call.active = some state →
      (robot.machine.calls task).active = some state ∨ robot.machine.currentState = state)
      (under : (Function.update robot.machine.calls task call mover).active = some state) :
      (robot.machine.calls mover).active = some state ∨ robot.machine.currentState = state :=
    (forall_update fun task (now : Call) => now.active = some state →
      (robot.machine.calls task).active = some state ∨
        robot.machine.currentState = state).mpr ⟨here, fun _ _ => .inl⟩ mover under
  cases moved_of_step moved with
  | loaded task here =>
    refine others (fun loaded => .inr ?_) under
    exact Option.some.inj loaded
  | returned task active nextState here =>
    refine others (fun computed => .inl ?_) under
    rw [here]
    exact computed
  | reported task reports here =>
    refine others (fun none => ?_) under
    split at none
    · contradiction
    · contradiction
  | _ => exact others (fun none => by contradiction) under

theorem staying_boot (mode : Robot.BootMode) (ready serial : Bool)
    (defined : Mover → StateName → Bool) :
    Staying (Robot.boot mode ready serial defined) where
  exclusive := exclusive_start _ defined
  acted := fun _ _ _ _ same => by contradiction
  held := by
    intro _ nextState goes
    contradiction

end BallyOS.CommConfig
