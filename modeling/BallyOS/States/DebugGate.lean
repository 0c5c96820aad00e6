import BallyOS.StateMachine.Exclusion
import BallyOS.States.Transitions

/-! Whether DEBUG protects the card and the firmware write. Only the transition
that leaves DEBUG asks whether a session is active, so a session that begins after
it asked is not protected; neither is any session against a reported error. -/
namespace BallyOS.States
open Library StateMachine

/-- What `process_transition` will return, from what it holds now. -/
def Progress.target : Progress → Option StateName
  | entered | requested _ => none
  | wanted nextState | unexposed nextState | unflashed nextState | cancelling nextState
  | settled nextState => some nextState

/-- The same, once it no longer asks for the storage session. -/
def Progress.pastStorage : Progress → Option StateName
  | unexposed nextState | unflashed nextState | cancelling nextState | settled nextState =>
    some nextState
  | _ => none

/-- The same, once nothing stops a firmware write from going on beside it. -/
def Progress.pastFlashing : Progress → Option StateName
  | unflashed nextState | settled nextState => some nextState
  | _ => none

/-- The state `next` is about to store, given how far its callback must have come. -/
def storing (past : StateName → Option StateName) : Call → Option StateName
  | .loaded activeState => past activeState
  | .computed _ nextState => some nextState
  | _ => none

/-- What `run` stores is what the state's action returned. -/
def Acted (mover : Mover) (call : Call) : Prop :=
  mover = .run → ∀ activeState nextState, call = .computed activeState nextState →
    nextState = action activeState

namespace Robot

/-- The state `next` stores if nothing else happens. -/
def held (robot : Robot) : Option StateName :=
  storing (fun activeState => some (robot.progress.target.getD activeState))
    (robot.machine.calls .next)

def pastStorage (robot : Robot) : Option StateName :=
  storing (fun _ => robot.progress.pastStorage) (robot.machine.calls .next)

def pastFlashing (robot : Robot) : Option StateName :=
  storing (fun _ => robot.progress.pastFlashing) (robot.machine.calls .next)

/-- In DEBUG, with no transition out of it past its check of the storage. -/
def MayExpose (robot : Robot) : Prop :=
  robot.machine.currentState = .debug ∧
    ∀ nextState, robot.pastStorage = some nextState → nextState = .debug

def MayFlash (robot : Robot) : Prop :=
  robot.machine.currentState = .debug ∧
    ∀ nextState, robot.pastFlashing = some nextState → nextState = .debug

/-- A session or a firmware write begins only where `process_transition` will
still see it, an error is reported only beside neither, `next` reports none of its
own while the machine is locked elsewhere than in ERROR, and nobody locks the
machine, or reports an error while it is locked, under a transition that goes
elsewhere. -/
def Guarded (robot : Robot) : Event → Prop
  | .exposeInstall answers => robot.command = .exposeMounted →
      robot.storage.driverInstalled = false → answers.installed = true → robot.MayExpose
  | .exposeActivate => robot.command = .exposeInstalled → robot.storage.isActive = false →
      robot.MayExpose
  | .uploadStart => robot.upload = .serving → robot.MayFlash
  | .setLocked true => ∀ nextState, robot.held = some nextState →
      nextState = robot.machine.currentState
  | .machine (.reportError mover) => robot.storage.isActive = false ∧ robot.flashing = false ∧
      (robot.locked = true → (mover = .next → robot.machine.currentState = .error) ∧
        ∀ nextState, robot.held = some nextState → nextState = .error)
  | _ => True

structure Gated (robot : Robot) : Prop where
  exclusive : Exclusive robot.machine
  acted : ∀ mover, Acted mover (robot.machine.calls mover)
  card : robot.storage.isActive = true → robot.MayExpose
  firmware : robot.flashing = true → robot.MayFlash
  lock : robot.locked = true → ∀ nextState, robot.held = some nextState →
    nextState = robot.machine.currentState
  still : robot.movedLocked = false

/-- A step that begins nothing and sends `next` nowhere new. -/
structure Eased (before after : Robot) : Prop where
  current : after.machine.currentState = before.machine.currentState
  active : after.storage.isActive = true → before.storage.isActive = true
  flashing : after.flashing = true → before.flashing = true
  locked : after.locked = true → before.locked = true
  held : after.locked = true → ∀ nextState, after.held = some nextState →
    before.held = some nextState ∨ nextState = before.machine.currentState
  pastStorage : after.storage.isActive = true → ∀ nextState, after.pastStorage = some nextState →
    before.pastStorage = some nextState ∨ nextState = .debug
  pastFlashing : after.flashing = true → ∀ nextState, after.pastFlashing = some nextState →
    before.pastFlashing = some nextState ∨ nextState = .debug
  still : after.movedLocked = before.movedLocked

private theorem gated_of_eased {before after : Robot} (gated : Gated before)
    (eased : Eased before after)
    (exclusive : Exclusive after.machine)
    (acted : ∀ mover, Acted mover (after.machine.calls mover)) : Gated after where
  exclusive := exclusive
  acted := acted
  card active := by
    obtain ⟨here, past⟩ := gated.card (eased.active active)
    refine ⟨eased.current.trans here, fun nextState goes => ?_⟩
    exact (eased.pastStorage active nextState goes).elim (past nextState) id
  firmware flashing := by
    obtain ⟨here, past⟩ := gated.firmware (eased.flashing flashing)
    refine ⟨eased.current.trans here, fun nextState goes => ?_⟩
    exact (eased.pastFlashing flashing nextState goes).elim (past nextState) id
  lock locked nextState goes := by
    rw [eased.current]
    exact (eased.held locked nextState goes).elim (gated.lock (eased.locked locked) nextState) id
  still := eased.still.trans gated.still

/-- A call from which nothing is stored sends `next` nowhere. -/
theorem storing_update {past : StateName → Option StateName} {calls : Mover → Call}
    (quiet : storing past call = none) (nextState : StateName)
    (goes : storing past (Function.update calls mover call .next) = some nextState) :
    storing past (calls .next) = some nextState := by
  by_cases same : Mover.next = mover
  · subst same
    rw [Function.update_self, quiet] at goes
    contradiction
  · rwa [Function.update_of_ne same] at goes

/-- Nothing but the storage, the upload and the shell moved. -/
theorem eased_beside {before after : Robot} (machine : after.machine = before.machine)
    (progress : after.progress = before.progress)
    (active : after.storage.isActive = true → before.storage.isActive = true)
    (flashing : after.flashing = true → before.flashing = true)
    (locked : after.locked = true → before.locked = true)
    (still : after.movedLocked = before.movedLocked) : Eased before after := by
  refine ⟨by rw [machine], active, flashing, locked, ?_, ?_, ?_, still⟩
  · intro _ nextState goes
    unfold held at *
    rw [machine, progress] at goes
    exact Or.inl goes
  · intro _ nextState goes
    unfold pastStorage at *
    rw [machine, progress] at goes
    exact Or.inl goes
  · intro _ nextState goes
    unfold pastFlashing at *
    rw [machine, progress] at goes
    exact Or.inl goes

/-- Only `process_transition` moved. -/
theorem eased_progress {before after : Robot}
    (here : before.machine.calls .next = .loaded activeState)
    (machine : after.machine = before.machine) (storage : after.storage = before.storage)
    (flashing : after.flashing = before.flashing) (locked : after.locked = before.locked)
    (still : after.movedLocked = before.movedLocked)
    (held : before.locked = true → ∀ nextState,
      after.progress.target.getD activeState = nextState →
        before.progress.target.getD activeState = nextState ∨
          nextState = before.machine.currentState)
    (pastStorage : before.storage.isActive = true → ∀ nextState,
      after.progress.pastStorage = some nextState →
        before.progress.pastStorage = some nextState ∨ nextState = .debug)
    (pastFlashing : before.flashing = true → ∀ nextState,
      after.progress.pastFlashing = some nextState →
        before.progress.pastFlashing = some nextState ∨ nextState = .debug) :
    Eased before after := by
  refine ⟨by rw [machine], by rw [storage]; exact id, by rw [flashing]; exact id,
    by rw [locked]; exact id, ?_, ?_, ?_, still⟩
  · intro shut nextState goes
    rw [locked] at shut
    simp only [Robot.held, machine, here, storing, Option.some.injEq] at *
    exact held shut nextState goes
  · intro active nextState goes
    rw [storage] at active
    simp only [Robot.pastStorage, machine, here, storing] at *
    exact pastStorage active nextState goes
  · intro writing nextState goes
    rw [flashing] at writing
    simp only [Robot.pastFlashing, machine, here, storing] at *
    exact pastFlashing writing nextState goes

/-- A check that holds the robot in DEBUG settles for where it is. -/
theorem eased_settled_debug {robot : Robot}
    (here : robot.machine.calls .next = .loaded activeState)
    (now : robot.machine.currentState = .debug) :
    Eased robot { robot with progress := .settled .debug } := by
  refine eased_progress here rfl rfl rfl rfl rfl ?_ ?_ ?_
  · rintro _ _ rfl
    exact Or.inr now.symm
  · intro _ _ goes
    exact Or.inr (Option.some.inj goes).symm
  · intro _ _ goes
    exact Or.inr (Option.some.inj goes).symm

/-- While the session is active, `process_transition` was called for DEBUG. -/
theorem Gated.debug_of_active {robot : Robot} (gated : Gated robot)
    (here : robot.machine.calls .next = .loaded activeState)
    (session : robot.storage.isActive = true) : activeState = .debug := by
  have now := (gated.card session).1
  rcases gated.exclusive.loaded .next activeState (by rw [here]; rfl) with same | error
  · exact same.symm.trans now
  · rw [now] at error
    contradiction

private theorem Gated.debug_of_flashing {robot : Robot} (gated : Gated robot)
    (here : robot.machine.calls .next = .loaded activeState)
    (writing : robot.flashing = true) : activeState = .debug := by
  have now := (gated.firmware writing).1
  rcases gated.exclusive.loaded .next activeState (by rw [here]; rfl) with same | error
  · exact same.symm.trans now
  · rw [now] at error
    contradiction

/-- Each check of `process_transition` settles for DEBUG what it was there to keep. -/
theorem eased_transition {robot next : Robot} {event : Event} (gated : Gated robot)
    (here : robot.machine.calls .next = .loaded activeState) (returns : event ≠ .decide)
    (stepped : robot.transitionStep activeState event = some next) :
    next.machine = robot.machine ∧ Eased robot next := by
  cases event with
  | takeRequest =>
    simp only [transitionStep] at stepped
    split at stepped
    · rename_i entered
      cases stepped
      refine ⟨rfl, eased_progress here rfl rfl rfl rfl rfl ?_ ?_ ?_⟩
      · rw [entered]
        exact fun _ _ goes => Or.inl goes
      · intro _ _ goes
        contradiction
      · intro _ _ goes
        contradiction
    · contradiction
  | readLock buttons =>
    simp only [transitionStep] at stepped
    split at stepped
    · rename_i request requested
      split at stepped
      · cases stepped
        refine ⟨rfl, eased_progress here rfl rfl rfl rfl rfl ?_ ?_ ?_⟩
        · rw [requested]
          exact fun _ _ goes => Or.inl goes
        · intro session nextState goes
          cases goes
          exact Or.inr (gated.debug_of_active here session)
        · intro writing nextState goes
          cases goes
          exact Or.inr (gated.debug_of_flashing here writing)
      · rename_i unlocked
        cases stepped
        refine ⟨rfl, eased_progress here rfl rfl rfl rfl rfl ?_ ?_ ?_⟩
        · exact fun locked => absurd locked unlocked
        · intro _ _ goes
          contradiction
        · intro _ _ goes
          contradiction
    · contradiction
  | checkStorage =>
    simp only [transitionStep] at stepped
    split at stepped
    · rename_i wanted
      split at stepped
      · rename_i seen
        cases stepped
        exact ⟨rfl, eased_settled_debug here (gated.card seen.2).1⟩
      · rename_i unseen
        cases stepped
        refine ⟨rfl, eased_progress here rfl rfl rfl rfl rfl ?_ ?_ ?_⟩
        · rw [wanted]
          exact fun _ _ goes => Or.inl goes
        · intro session
          exact absurd ⟨gated.debug_of_active here session, session⟩ unseen
        · intro _ _ goes
          contradiction
    · contradiction
  | checkFlashing =>
    simp only [transitionStep] at stepped
    split at stepped
    · rename_i unexposed
      split at stepped
      · rename_i seen
        cases stepped
        exact ⟨rfl, eased_settled_debug here (gated.firmware seen.2).1⟩
      · rename_i unseen
        cases stepped
        refine ⟨rfl, eased_progress here rfl rfl rfl rfl rfl ?_ ?_ ?_⟩
        · rw [unexposed]
          exact fun _ _ goes => Or.inl goes
        · rw [unexposed]
          exact fun _ _ goes => Or.inl goes
        · intro writing
          exact absurd ⟨gated.debug_of_flashing here writing, writing⟩ unseen
    · contradiction
  | cancelTests =>
    simp only [transitionStep] at stepped
    split at stepped
    · rename_i unflashed
      split at stepped
      · cases stepped
        refine ⟨rfl, eased_progress here rfl rfl rfl rfl rfl ?_ ?_ ?_⟩
        · rw [unflashed]
          exact fun _ _ goes => Or.inl goes
        · rw [unflashed]
          exact fun _ _ goes => Or.inl goes
        · intro _ _ goes
          contradiction
      · cases stepped
        refine ⟨rfl, eased_progress here rfl rfl rfl rfl rfl ?_ ?_ ?_⟩
        · rw [unflashed]
          exact fun _ _ goes => Or.inl goes
        · rw [unflashed]
          exact fun _ _ goes => Or.inl goes
        · rw [unflashed]
          exact fun _ _ goes => Or.inl goes
    · contradiction
  | stopServer =>
    simp only [transitionStep] at stepped
    split at stepped
    · rename_i cancelling
      split at stepped
      · contradiction
      · rename_i between
        cases stepped
        refine ⟨rfl, eased_progress here rfl rfl rfl rfl rfl ?_ ?_ ?_⟩
        · rw [cancelling]
          exact fun _ _ goes => Or.inl goes
        · rw [cancelling]
          exact fun _ _ goes => Or.inl goes
        · exact fun writing => absurd writing between
    · contradiction
  | decide => contradiction
  | _ =>
    simp only [transitionStep] at stepped
    contradiction

/-- A mover that goes where nothing is stored, with the state as it was. -/
theorem eased_goto {robot : Robot} {world : World}
    (current : world.currentState = robot.machine.currentState)
    (calls : world.calls = robot.machine.calls)
    (quiet : ∀ past, storing past call = none) :
    Eased robot { robot with machine := world.goto mover call } := by
  have same : ∀ past nextState,
      storing past ((world.goto mover call).calls .next) = some nextState →
        storing past (robot.machine.calls .next) = some nextState := by
    intro past nextState goes
    rw [← calls]
    exact storing_update (quiet past) nextState goes
  refine ⟨current, id, id, id, ?_, ?_, ?_, rfl⟩
  · exact fun _ nextState goes => Or.inl (same _ nextState goes)
  · exact fun _ nextState goes => Or.inl (same _ nextState goes)
  · exact fun _ nextState goes => Or.inl (same _ nextState goes)

/-- `run` moved, and `next` did not. -/
theorem eased_run {robot : Robot} {call : Call} :
    Eased robot { robot with machine := robot.machine.goto .run call } := by
  have same : (robot.machine.goto .run call).calls .next = robot.machine.calls .next :=
    robot.machine.goto_other call (by decide)
  refine ⟨rfl, id, id, id, ?_, ?_, ?_, rfl⟩
  · intro _ nextState goes
    rw [held, same] at goes
    exact Or.inl goes
  · intro _ nextState goes
    rw [pastStorage, same] at goes
    exact Or.inl goes
  · intro _ nextState goes
    rw [pastFlashing, same] at goes
    exact Or.inl goes

theorem machineStep_some {robot next : Robot} {event : StateMachine.Event}
    (stepped : robot.machineStep event = some next) :
    StateMachine.step robot.machine event = some next.machine ∧
      next = { robot with machine := next.machine } := by
  simp only [machineStep, Option.map_eq_some_iff] at stepped
  obtain ⟨machine, moved, rfl⟩ := stepped
  exact ⟨moved, rfl⟩

/-- A step that stores nothing and begins no callback of `next`. -/
def Quiet : StateMachine.Event → Prop
  | .load mover | .callback mover (some _) => mover = .run
  | .store _ | .reportError _ => False
  | _ => True

theorem eased_machineStep {robot next : Robot} {event : StateMachine.Event} (quiet : Quiet event)
    (stepped : robot.machineStep event = some next) : Eased robot next := by
  obtain ⟨moved, whole⟩ := machineStep_some stepped
  rw [whole]
  generalize next.machine = machine at moved
  cases moved_of_step moved with
  | taken | refused | undefined | threw | gave | gaveUp => exact eased_goto rfl rfl fun _ => rfl
  | loaded mover here =>
    cases quiet
    exact eased_run
  | returned mover active nextState here =>
    cases quiet
    exact eased_run
  | stored | reported => exact quiet.elim

/-- The callback of `next` returns what it settled. -/
theorem eased_decide {robot next : Robot}
    (here : robot.machine.calls .next = .loaded activeState)
    (settled : robot.progress = .settled nextState)
    (stepped : robot.machineStep (.callback .next (some nextState)) = some next) :
    Eased robot next := by
  obtain ⟨moved, whole⟩ := machineStep_some stepped
  rw [whole]
  generalize next.machine = machine at moved
  cases moved_of_step moved with
  | returned mover active nextState loaded =>
    have calls := robot.machine.goto_self .next (.computed active nextState)
    refine ⟨rfl, id, id, id, ?_, ?_, ?_, rfl⟩
    · intro _ target goes
      rw [held, calls] at goes
      rw [held, here, settled]
      exact Or.inl goes
    · intro _ target goes
      rw [pastStorage, calls] at goes
      rw [pastStorage, here, settled]
      exact Or.inl goes
    · intro _ target goes
      rw [pastFlashing, calls] at goes
      rw [pastFlashing, here, settled]
      exact Or.inl goes

/-- `next` enters `process_transition` with the state it loaded. -/
theorem eased_load {robot next : Robot}
    (stepped : { robot with progress := .entered }.machineStep (.load .next) = some next) :
    Eased robot next := by
  obtain ⟨moved, whole⟩ := machineStep_some stepped
  rw [whole]
  generalize next.machine = machine at moved
  have calls : ∀ call, (robot.machine.goto .next call).calls .next = call :=
    robot.machine.goto_self .next
  cases moved_of_step moved with
  | loaded mover here =>
    refine ⟨rfl, id, id, id, ?_, ?_, ?_, rfl⟩
    · intro _ nextState goes
      rw [held, calls] at goes
      exact Or.inr (Option.some.inj goes).symm
    · intro _ nextState goes
      rw [pastStorage, calls] at goes
      contradiction
    · intro _ nextState goes
      rw [pastFlashing, calls] at goes
      contradiction
  | undefined mover here =>
    refine ⟨rfl, id, id, id, ?_, ?_, ?_, rfl⟩
    · intro _ nextState goes
      rw [held, calls] at goes
      contradiction
    · intro _ nextState goes
      rw [pastStorage, calls] at goes
      contradiction
    · intro _ nextState goes
      rw [pastFlashing, calls] at goes
      contradiction

/-- While `next` stores nothing, only the state itself can fail the sessions. -/
theorem gated_outside {robot : Robot} (exclusive : Exclusive robot.machine)
    (acted : ∀ mover, Acted mover (robot.machine.calls mover))
    (outside : ∀ past, storing past (robot.machine.calls .next) = none)
    (card : robot.storage.isActive = true → robot.machine.currentState = .debug)
    (firmware : robot.flashing = true → robot.machine.currentState = .debug)
    (still : robot.movedLocked = false) : Gated robot := by
  refine ⟨exclusive, acted, fun session => ⟨card session, ?_⟩,
    fun writing => ⟨firmware writing, ?_⟩, ?_, still⟩
  · intro nextState goes
    rw [pastStorage, outside] at goes
    contradiction
  · intro nextState goes
    rw [pastFlashing, outside] at goes
    contradiction
  · intro _ nextState goes
    rw [held, outside] at goes
    contradiction

/-- `run` stores what DEBUG's action returned while a session is active, and
`next` is then outside its transition. -/
theorem gated_storeRun {robot next : Robot} (gated : Gated robot)
    (exclusive : Exclusive next.machine)
    (acted : ∀ mover, Acted mover (next.machine.calls mover))
    (stepped : robot.machineStep (.store .run) = some next) : Gated next := by
  obtain ⟨moved, whole⟩ := machineStep_some stepped
  rw [whole]
  generalize next.machine = machine at moved exclusive acted
  cases moved_of_step moved with
  | stored mover active nextState here =>
    have holds : (robot.machine.calls .run).Holds := by
      rw [here]
      trivial
    have computed : nextState = action active := gated.acted .run rfl active nextState here
    have debugged : robot.machine.currentState = .debug → nextState = .debug := by
      intro now
      rcases gated.exclusive.loaded .run active (by rw [here]; rfl) with same | error
      · rw [computed, ← same, now]
        rfl
      · rw [now] at error
        contradiction
    refine gated_outside exclusive acted (fun past => ?_)
      (fun session => debugged (gated.card session).1)
      (fun writing => debugged (gated.firmware writing).1) gated.still
    have free := gated.exclusive.other_free holds (by decide : Mover.next ≠ .run)
    have same : (robot.machine.goto .run .stored).calls .next = robot.machine.calls .next :=
      robot.machine.goto_other .stored (by decide)
    apply (congrArg (storing past) same).trans
    cases call : robot.machine.calls .next with
    | loaded | computed =>
      rw [call] at free
      exact absurd trivial free
    | idle | locked | stored | failing | reporting => rfl

/-- `next` stores DEBUG while a session is active, and the state it found while
the machine is locked. -/
theorem gated_storeNext {robot next : Robot} (gated : Gated robot)
    (exclusive : Exclusive next.machine)
    (acted : ∀ mover, Acted mover (next.machine.calls mover))
    (stepped : robot.moverStep (.store .next) = some next) : Gated next := by
  simp only [moverStep, watchedStep, Option.map_eq_some_iff] at stepped
  obtain ⟨after, stepped, rfl⟩ := stepped
  obtain ⟨moved, whole⟩ := machineStep_some stepped
  rw [whole] at exclusive acted ⊢
  generalize after.machine = machine at moved exclusive acted
  cases moved_of_step moved with
  | stored mover active nextState here =>
    have stores : robot.held = some nextState ∧ robot.pastStorage = some nextState ∧
        robot.pastFlashing = some nextState := by
      simp only [held, pastStorage, pastFlashing, here, storing, and_self]
    refine gated_outside exclusive acted (fun past => ?_)
      (fun session => (gated.card session).2 nextState stores.2.1)
      (fun writing => (gated.firmware writing).2 nextState stores.2.2) ?_
    · exact congrArg (storing past) (robot.machine.goto_self .next .stored)
    · have kept : robot.locked = true → nextState = robot.machine.currentState :=
        fun locked => gated.lock locked nextState stores.1
      simpa [gated.still] using kept

/-- Whoever reports an error, the state is ERROR then. -/
theorem error_of_report {robot after : Robot}
    (stepped : robot.machineStep (.reportError mover) = some after) :
    after.machine.currentState = .error := by
  obtain ⟨moved, _⟩ := machineStep_some stepped
  generalize after.machine = machine at moved
  cases moved_of_step moved with
  | reported => rfl

/-- An error reported beside no session changes nothing that is protected. -/
theorem gated_report {robot after : Robot}
    (guarded : Guarded robot (.machine (.reportError mover)))
    (exclusive : Exclusive after.machine)
    (acted : ∀ mover, Acted mover (after.machine.calls mover))
    (stepped : robot.machineStep (.reportError mover) = some after) (still : watched = false) :
    Gated { after with movedLocked := watched } := by
  obtain ⟨closed, unwritten, quiet⟩ := guarded
  obtain ⟨moved, whole⟩ := machineStep_some stepped
  rw [whole]
  generalize after.machine = machine at moved exclusive acted
  cases moved_of_step moved with
  | reported mover reports here =>
    refine ⟨exclusive, acted, fun session => ?_, fun writing => ?_, fun locked nextState goes => ?_,
      still⟩
    · dsimp only at session
      rw [closed] at session
      contradiction
    · dsimp only at writing
      rw [unwritten] at writing
      contradiction
    · refine (quiet locked).2 nextState (storing_update ?_ nextState goes)
      split <;> rfl

/-- `next` reports its own error where the state is ERROR already, or the machine
is not locked. -/
theorem gated_reportNext {robot next : Robot} (gated : Gated robot)
    (guarded : Guarded robot (.machine (.reportError .next)))
    (exclusive : Exclusive next.machine)
    (acted : ∀ mover, Acted mover (next.machine.calls mover))
    (stepped : robot.moverStep (.reportError .next) = some next) : Gated next := by
  simp only [moverStep, watchedStep, Option.map_eq_some_iff] at stepped
  obtain ⟨after, stepped, rfl⟩ := stepped
  refine gated_report guarded exclusive acted stepped ?_
  have kept : robot.locked = true → robot.machine.currentState = .error :=
    fun locked => (guarded.2.2 locked).1 rfl
  simp only [gated.still, Bool.false_or, Bool.and_eq_false_iff, decide_eq_false_iff_not, not_not]
  cases locked : robot.locked with
  | false => exact Or.inl rfl
  | true => exact Or.inr ((error_of_report stepped).trans (kept locked).symm)

private theorem acted_moved {world next : World} {event : StateMachine.Event}
    (acted : ∀ mover, Acted mover (world.calls mover)) (moved : Moved world event next)
    (policy : ∀ nextState, event = .callback .run (some nextState) →
      ∃ activeState, world.calls .run = .loaded activeState ∧ nextState = action activeState) :
    ∀ mover, Acted mover (next.calls mover) := by
  have others : ∀ {mover call}, Acted mover call →
      ∀ task, Acted task (Function.update world.calls mover call task) :=
    fun here => (forall_update Acted).mpr ⟨here, fun task _ => acted task⟩
  cases moved with
  | returned mover active nextState here =>
    apply others
    rintro rfl _ _ same
    cases same
    obtain ⟨activeState, loaded, returned⟩ := policy nextState rfl
    rw [here] at loaded
    cases loaded
    exact returned
  | reported mover reports here =>
    refine others fun _ _ _ same => ?_
    split at same <;> contradiction
  | _ => exact others fun _ _ _ same => by contradiction

/-- The machine's own order, after a step of the machine in which `run`'s callback
returns what the state's action does. -/
theorem ordered_machineStep {robot next : Robot} {event : StateMachine.Event}
    (exclusive : Exclusive robot.machine)
    (acted : ∀ mover, Acted mover (robot.machine.calls mover))
    (stepped : robot.machineStep event = some next)
    (policy : ∀ nextState, event = .callback .run (some nextState) →
      ∃ activeState, robot.machine.calls .run = .loaded activeState ∧
        nextState = action activeState) :
    Exclusive next.machine ∧ ∀ mover, Acted mover (next.machine.calls mover) := by
  obtain ⟨moved, _⟩ := machineStep_some stepped
  exact ⟨exclusive_step exclusive moved, acted_moved acted (moved_of_step moved) policy⟩

private theorem gated_mover {robot next : Robot} {event : StateMachine.Event} (gated : Gated robot)
    (guarded : Guarded robot (.machine event)) (stepped : robot.moverStep event = some next) :
    Gated next := by
  have ordered : ∀ {robot' after : Robot}, robot'.machine = robot.machine →
      robot'.machineStep event = some after → (∀ result, event ≠ .callback .run (some result)) →
      Exclusive after.machine ∧ ∀ mover, Acted mover (after.machine.calls mover) := by
    intro robot' after same moved other
    refine ordered_machineStep ?_ ?_ moved fun nextState goes => absurd goes (other nextState)
    · rw [same]
      exact gated.exclusive
    · rw [same]
      exact gated.acted
  have quietly : Quiet event → robot.machineStep event = some next →
      (∀ result, event ≠ .callback .run (some result)) → Gated next := by
    intro quiet moved other
    obtain ⟨exclusive, acted⟩ := ordered rfl moved other
    exact gated_of_eased gated (eased_machineStep quiet moved) exclusive acted
  cases event with
  | callback mover result => contradiction
  | take mover => exact quietly trivial stepped fun _ => by simp
  | takeFailed mover => exact quietly trivial stepped fun _ => by simp
  | give mover => exact quietly trivial stepped fun _ => by simp
  | load mover =>
    cases mover with
    | run => exact quietly rfl stepped fun _ => by simp
    | next =>
      have entered : { robot with progress := .entered }.machineStep (.load .next) = some next :=
        stepped
      obtain ⟨exclusive, acted⟩ := ordered (by rfl) entered fun _ => by simp
      exact gated_of_eased gated (eased_load stepped) exclusive acted
  | store mover =>
    cases mover with
    | run =>
      obtain ⟨exclusive, acted⟩ := ordered rfl stepped fun _ => by simp
      exact gated_storeRun gated exclusive acted stepped
    | next =>
      obtain ⟨after, moved, whole⟩ := Option.map_eq_some_iff.mp stepped
      obtain ⟨exclusive, acted⟩ := ordered rfl moved fun _ => by simp
      rw [← whole]
      exact gated_storeNext gated exclusive acted (whole ▸ stepped)
  | reportError mover =>
    cases mover with
    | run =>
      obtain ⟨exclusive, acted⟩ := ordered rfl stepped fun _ => by simp
      have still : next.movedLocked = false := by
        rw [(machineStep_some stepped).2]
        exact gated.still
      exact gated_report guarded exclusive acted stepped still
    | next =>
      obtain ⟨after, moved, whole⟩ := Option.map_eq_some_iff.mp stepped
      obtain ⟨exclusive, acted⟩ := ordered rfl moved fun _ => by simp
      rw [← whole]
      exact gated_reportNext gated guarded exclusive acted (whole ▸ stepped)

private theorem gated_beside {robot next : Robot} (gated : Gated robot) (eased : Eased robot next)
    (machine : next.machine = robot.machine) : Gated next := by
  refine gated_of_eased gated eased ?_ ?_
  · rw [machine]
    exact gated.exclusive
  · rw [machine]
    exact gated.acted

/-- Only the parts of `expose` that bring the device up or open the session
begin one. -/
theorem gated_expose {robot next : Robot} {event : Event} (gated : Gated robot)
    (guarded : Guarded robot event) (stepped : robot.exposeStep event = some next) :
    Gated next := by
  cases event with
  | exposeCheck =>
    simp only [exposeStep, Option.ite_none_right_eq_some, Option.some.injEq] at stepped
    obtain ⟨_, rfl⟩ := stepped
    exact gated_beside gated (eased_beside rfl rfl id id id rfl) rfl
  | exposeAllowed answers =>
    simp only [exposeStep, Option.ite_none_right_eq_some, Option.some.injEq] at stepped
    obtain ⟨_, rfl⟩ := stepped
    refine gated_beside gated (eased_beside rfl rfl (fun session => ?_) id id rfl) rfl
    rwa [Usb.exposeAllowed_isActive] at session
  | exposeMount answers =>
    simp only [exposeStep, Option.ite_none_right_eq_some, Option.some.injEq] at stepped
    obtain ⟨_, rfl⟩ := stepped
    refine gated_beside gated (eased_beside rfl rfl (fun session => ?_) id id rfl) rfl
    rwa [Usb.exposeMount_isActive] at session
  | exposeInstall answers =>
    simp only [exposeStep, Option.ite_none_right_eq_some, Option.some.injEq] at stepped
    obtain ⟨mounted, rfl⟩ := stepped
    by_cases begins : robot.storage.driverInstalled = false ∧ answers.installed = true
    · have may := guarded mounted begins.1 begins.2
      exact ⟨gated.exclusive, gated.acted, fun _ => may, gated.firmware, gated.lock, gated.still⟩
    · refine gated_beside gated (eased_beside rfl rfl (fun session => ?_) id id rfl) rfl
      rwa [Usb.exposeInstall_isActive begins] at session
  | exposeActivate =>
    simp only [exposeStep, Option.ite_none_right_eq_some, Option.some.injEq] at stepped
    obtain ⟨installed, rfl⟩ := stepped
    have may : robot.MayExpose := by
      cases active : robot.storage.isActive with
      | false => exact guarded installed active
      | true => exact gated.card active
    exact ⟨gated.exclusive, gated.acted, fun _ => may, gated.firmware, gated.lock, gated.still⟩
  | _ =>
    simp only [exposeStep] at stepped
    contradiction

private theorem gated_storage {robot next : Robot} {event : Event} (gated : Gated robot)
    (stepped : robot.storageStep event = some next) : Gated next := by
  cases event with
  | reclaim answer synced =>
    cases stepped
    exact gated_beside gated
      (eased_beside rfl rfl (Usb.isActive_of_reclaim) id id rfl) rfl
  | processStorage reclaimPressed synced answer syncedReturn =>
    simp only [storageStep, Option.ite_none_right_eq_some, Option.some.injEq] at stepped
    obtain ⟨_, rfl⟩ := stepped
    exact gated_beside gated
      (eased_beside rfl rfl (Usb.isActive_of_process) id id rfl) rfl
  | storageEvent event =>
    cases stepped
    refine gated_beside gated (eased_beside rfl rfl (fun session => ?_) id id rfl) rfl
    cases event <;> exact session
  | hostConnection attached =>
    cases stepped
    exact gated_beside gated (eased_beside rfl rfl id id id rfl) rfl
  | ejected =>
    cases stepped
    exact gated_beside gated (eased_beside rfl rfl id id id rfl) rfl
  | _ =>
    simp only [storageStep] at stepped
    contradiction

private theorem gated_upload {robot next : Robot} {event : Event} (gated : Gated robot)
    (guarded : Guarded robot event) (stepped : robot.uploadStep event = some next) :
    Gated next := by
  cases event with
  | otaCheck | otaStart | otaServe =>
    simp only [uploadStep, Option.ite_none_right_eq_some, Option.some.injEq] at stepped
    obtain ⟨_, rfl⟩ := stepped
    exact gated_beside gated (eased_beside rfl rfl id id id rfl) rfl
  | otaCancel =>
    simp only [uploadStep, Option.ite_none_left_eq_some, Option.some.injEq] at stepped
    obtain ⟨_, rfl⟩ := stepped
    exact gated_beside gated (eased_beside rfl rfl id id id rfl) rfl
  | uploadStart =>
    simp only [uploadStep, Option.ite_none_right_eq_some, Option.some.injEq] at stepped
    obtain ⟨serving, rfl⟩ := stepped
    have may := guarded serving.1
    exact ⟨gated.exclusive, gated.acted, gated.card, fun _ => may, gated.lock, gated.still⟩
  | uploadEnd =>
    simp only [uploadStep, Option.ite_none_right_eq_some, Option.some.injEq] at stepped
    obtain ⟨_, rfl⟩ := stepped
    refine gated_beside gated (eased_beside rfl rfl id (fun writing => ?_) id rfl) rfl
    contradiction
  | _ =>
    simp only [uploadStep] at stepped
    contradiction

private theorem gated_step {robot next : Robot} {event : Event} (gated : Gated robot)
    (guarded : Guarded robot event) (stepped : step robot event = some next) : Gated next := by
  cases event with
  | machine event => exact gated_mover gated guarded stepped
  | act =>
    simp only [step] at stepped
    split at stepped
    · rename_i activeState here
      obtain ⟨exclusive, acted⟩ := ordered_machineStep gated.exclusive gated.acted stepped
        fun nextState same => ⟨activeState, here, by cases same; rfl⟩
      exact gated_of_eased gated (eased_machineStep (by exact rfl) stepped) exclusive acted
    · contradiction
  | threw mover =>
    obtain ⟨exclusive, acted⟩ := ordered_machineStep gated.exclusive gated.acted stepped
      fun nextState same => by simp at same
    exact gated_of_eased gated (eased_machineStep (by trivial) stepped) exclusive acted
  | requestState target =>
    simp only [step, Option.ite_none_right_eq_some, Option.some.injEq] at stepped
    obtain ⟨_, rfl⟩ := stepped
    exact gated_beside gated (eased_beside rfl rfl id id id rfl) rfl
  | setLocked locked =>
    cases stepped
    cases locked with
    | false => exact gated_beside gated (eased_beside rfl rfl id id (by simp) rfl) rfl
    | true =>
      exact ⟨gated.exclusive, gated.acted, gated.card, gated.firmware, fun _ => guarded,
        gated.still⟩
  | decide =>
    simp only [step] at stepped
    split at stepped
    · rename_i activeState here
      simp only [transitionStep] at stepped
      split at stepped
      · rename_i nextState settled
        obtain ⟨exclusive, acted⟩ := ordered_machineStep gated.exclusive gated.acted stepped
          fun nextState same => by simp at same
        exact gated_of_eased gated (eased_decide here settled stepped) exclusive acted
      · contradiction
    · contradiction
  | takeRequest | readLock | checkStorage | checkFlashing | cancelTests | stopServer =>
    simp only [step] at stepped
    split at stepped
    · rename_i activeState here
      obtain ⟨machine, eased⟩ := eased_transition gated here (by simp) stepped
      exact gated_beside gated eased machine
    · contradiction
  | exposeCheck | exposeAllowed | exposeMount | exposeInstall | exposeActivate =>
    exact gated_expose gated guarded stepped
  | reclaim | processStorage | storageEvent | hostConnection | ejected =>
    simp only [step] at stepped
    exact gated_storage gated stepped
  | otaCheck | otaStart | otaServe | otaCancel | uploadStart | uploadEnd =>
    exact gated_upload gated guarded stepped

/-- Every boot mode that opens a session starts in DEBUG. -/
theorem gated_boot (mode : BootMode) (ready serial : Bool) (defined : Mover → StateName → Bool) :
    Gated (boot mode ready serial defined) := by
  refine gated_outside (exclusive_start _ defined) (fun _ _ _ _ same => by contradiction)
    (fun _ => rfl) (fun session => ?_) (fun writing => by contradiction) rfl
  have closed : (Usb.Storage.isActive { ready }) = false := rfl
  cases mode with
  | normal | commConfig => cases serial <;> simp [boot, Usb.Storage.isActive] at session
  | ota started =>
    cases started with
    | false => cases serial <;> simp [boot, Usb.Storage.isActive] at session
    | true => rfl
  | storage answers =>
    cases exposing : Usb.Storage.expose { ready } answers with
    | mk exposed storage =>
      cases exposed with
      | true => simp [boot, start, exposing]
      | false =>
        have failed := Usb.expose_failed (by rw [exposing])
        rw [exposing, closed] at failed
        simp only [Usb.Storage.isActive, Bool.or_eq_false_iff] at failed
        cases serial <;> simp [boot, exposing, Usb.Storage.isActive, failed] at session

end Robot

/-- What the gate is for. -/
def Protects (robot : Robot) : Prop :=
  (robot.storage.isActive = true ∨ robot.flashing = true →
    robot.machine.currentState = .debug) ∧ robot.movedLocked = false

/-- DEBUG protects the sessions, and the lock the state, in every run in which
the sessions begin under the eyes of `process_transition`, errors are reported
beside them, and neither locks nor errors cut into a transition elsewhere. -/
theorem debug_gate_protects {robot : Robot} (mode : Robot.BootMode) (ready serial : Bool)
    (defined : Mover → StateName → Bool)
    (ran : run Robot.step (Robot.boot mode ready serial defined) events = some robot)
    (guarded : Along Robot.step Robot.Guarded (Robot.boot mode ready serial defined) events) :
    Protects robot := by
  have gated : Robot.Gated robot :=
    run_invariant_along (fun held guards stepped => Robot.gated_step held guards stepped)
      (Robot.gated_boot mode ready serial defined) guarded ran
  refine ⟨fun sessions => ?_, gated.still⟩
  rcases sessions with active | writing
  · exact (gated.card active).1
  · exact (gated.firmware writing).1

/-- Every state but NONE has both callbacks. -/
def everyCallback (_ : Mover) (state : StateName) : Bool := verifyState state

/-- `next`, up to where the policy begins and after it ends. -/
def nextCall (policy : List Event) : List Event :=
  [.machine (.take .next), .machine (.load .next), .takeRequest] ++ policy ++
    [.decide, .machine (.store .next), .machine (.give .next)]

/-- In DEBUG the card is lent and firmware uploaded; the button that leaves DEBUG
is refused by the lock, and then by the session. -/
def refusedTrace : List Event :=
  [.exposeCheck, .exposeAllowed {}, .exposeMount {}, .exposeInstall {}, .exposeActivate,
    .otaServe, .uploadStart, .setLocked true] ++ nextCall [.readLock 1] ++
    [.setLocked false] ++ nextCall [.readLock 1, .checkStorage]

theorem gate_of_refusedTrace : ∃ robot,
    run Robot.step (Robot.boot (.ota true) true false everyCallback) refusedTrace = some robot ∧
    robot.storage.isActive = true ∧ robot.flashing = true ∧ Protects robot := by
  have ran : run Robot.step (Robot.boot (.ota true) true false everyCallback) refusedTrace =
      some _ := rfl
  have guarded : Along Robot.step Robot.Guarded
      (Robot.boot (.ota true) true false everyCallback) refusedTrace := by
    have may : ∀ {robot : Robot}, robot.machine.currentState = .debug →
        robot.pastStorage = none → robot.MayExpose := fun now none =>
      ⟨now, fun nextState goes => by rw [none] at goes; contradiction⟩
    refine along_of_step trivial rfl (along_of_step trivial rfl (along_of_step trivial rfl ?_))
    refine along_of_step (fun _ _ _ => may rfl rfl) rfl ?_
    refine along_of_step (fun _ _ => may rfl rfl) rfl ?_
    refine along_of_step trivial rfl (along_of_step (fun _ => ⟨rfl, fun _ goes => ?_⟩) rfl ?_)
    · contradiction
    refine along_of_step (fun _ goes => ?_) rfl ?_
    · contradiction
    refine along_of_step trivial rfl (along_of_step trivial rfl (along_of_step trivial rfl ?_))
    refine along_of_step trivial rfl (along_of_step trivial rfl (along_of_step trivial rfl ?_))
    refine along_of_step trivial rfl (along_of_step trivial rfl (along_of_step trivial rfl ?_))
    refine along_of_step trivial rfl (along_of_step trivial rfl (along_of_step trivial rfl ?_))
    refine along_of_step trivial rfl (along_of_step trivial rfl (along_of_step trivial rfl ?_))
    exact along_of_step trivial rfl trivial
  exact ⟨_, ran, rfl, rfl, debug_gate_protects (.ota true) true false everyCallback ran guarded⟩

/-- `run` out of SETUP and `next` into DEBUG; the button leaves DEBUG again between
the check of "storage -expose" and the rest of it. -/
def overtakenTrace : List Event :=
  [.machine (.take .run), .machine (.load .run), .act, .machine (.store .run),
    .machine (.give .run)] ++
    nextCall [.readLock 4, .checkStorage, .checkFlashing, .cancelTests] ++ [.exposeCheck] ++
    nextCall [.readLock 1, .checkStorage, .checkFlashing, .cancelTests] ++
    [.exposeAllowed {}, .exposeMount {}, .exposeInstall {}, .exposeActivate]

/-- The host has the card and the robot is in FINISH. -/
theorem card_is_lent_outside_debug : ¬∀ events robot,
    run Robot.step (Robot.boot .normal true false everyCallback) events = some robot →
      Protects robot := by
  intro every
  have lent := (every overtakenTrace _ rfl).1 (Or.inl rfl)
  contradiction

end BallyOS.States
