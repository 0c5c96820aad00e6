import BallyOS.Jobs.Scheduler

/-! What holds of every job in the table, whatever was scheduled, polled and cancelled. -/
namespace BallyOS.Jobs
open Library

/-! ### What a step can be -/

/-- A schedule or a cancel call. -/
def Event.isCall : Event → Bool
  | .configure _ => false
  | .poll _ _ _ => false
  | _ => true

/-- What a schedule call writes into its slot, and for how many firings it is. -/
inductive Fills : Event → UInt32 → (Job → Job) → Prop
  | interval (command : Option (List UInt8)) (positive : intervalMs ≠ 0) :
    Fills (.scheduleInterval intervalMs repeats command) repeats fun job =>
      { job with kind := .interval, intervalMs := intervalMs, remaining := repeats }
  | once (command : Option (List UInt8)) (positive : delayMs ≠ 0) :
    Fills (.scheduleOnce delayMs command) 1 fun job =>
      { job with kind := .once, intervalMs := delayMs, remaining := 1 }
  | onState (state : UInt8) (command : Option (List UInt8)) :
    Fills (.scheduleOnState state command) 0 fun job =>
      { job with kind := .onStateEnter, state := state, intervalMs := 0, remaining := 0 }

theorem isCall_of_fills (fills : Fills event repeats fill) : event.isCall = true := by
  cases fills with
  | _ => rfl

inductive Moved (scheduler : Scheduler) : Event → Scheduler → Prop
  | configured (submit : Bool) : Moved scheduler (.configure submit) { scheduler with submit }
  | refused (call : event.isCall = true) (error : Error) :
    Moved scheduler event (scheduler.reject error).2
  | made (fills : Fills event repeats fill) (command : Option (List UInt8))
      (checked : commandError scheduler command = none)
      (found : (scheduler.jobs.findIdx? fun job => !job.active) = some slot) :
    Moved scheduler event { scheduler with
      jobs := scheduler.jobs.set slot (fill {
        active := true
        id := scheduler.nextId
        command := command.getD []
        history := { serial := scheduler.issued.length, repeats := repeats } })
      nextId := if scheduler.nextId = 0xFF then 1 else scheduler.nextId + 1
      issued := scheduler.issued ++ [scheduler.nextId] }
  | unknown (id : UInt8) : Moved scheduler (.cancel id) scheduler
  | cancelled (id : UInt8)
      (found : (scheduler.jobs.findIdx? fun job => job.active && job.id = id) = some slot) :
    Moved scheduler (.cancel id) { scheduler with
      jobs := scheduler.jobs.modify slot Job.cancel }
  | cancelledAll : Moved scheduler .cancelAll { scheduler with
      jobs := scheduler.jobs.map fun job => if job.active then job.cancel else job }
  | unpolled (nowMs : UInt64) (currentState : UInt8) (submits : List Bool)
      (unready : scheduler.submit = false) :
    Moved scheduler (.poll nowMs currentState submits) scheduler
  | polled (nowMs : UInt64) (currentState : UInt8) (submits : List Bool)
      (ready : scheduler.submit = true) (enters : stateEntered =
        decide (scheduler.lastState ≠ kNoState ∧ currentState ≠ scheduler.lastState)) :
    Moved scheduler (.poll nowMs currentState submits) { scheduler with
      jobs := (pollJobs nowMs stateEntered currentState submits scheduler.jobs scheduler.stats).1
      stats :=
        (pollJobs nowMs stateEntered currentState submits scheduler.jobs scheduler.stats).2.1
      lastState := currentState }

private theorem moved_of_allocate {scheduler : Scheduler} (command : Option (List UInt8))
    (fills : Fills event repeats fill) :
    Moved scheduler event (allocate scheduler command repeats fill).2 := by
  unfold allocate
  cases checked : commandError scheduler command with
  | some error => exact .refused (isCall_of_fills fills) error
  | none =>
    cases found : scheduler.jobs.findIdx? fun job => !job.active with
    | none => exact .refused (isCall_of_fills fills) .full
    | some slot => exact .made fills command checked found

theorem moved_of_step {scheduler next : Scheduler} {event : Event}
    (stepped : step scheduler event = some next) : Moved scheduler event next := by
  cases event with
  | configure submit =>
    cases stepped
    exact .configured submit
  | scheduleInterval intervalMs repeats command =>
    cases stepped
    unfold scheduleInterval
    split
    · exact .refused rfl .badInterval
    · exact moved_of_allocate command (.interval command ‹_›)
  | scheduleOnce delayMs command =>
    cases stepped
    unfold scheduleOnce
    split
    · exact .refused rfl .badInterval
    · exact moved_of_allocate command (.once command ‹_›)
  | scheduleOnState state command =>
    cases stepped
    exact moved_of_allocate command (.onState state command)
  | cancel id =>
    cases stepped
    unfold cancel
    split
    · exact .unknown id
    · exact .cancelled id ‹_›
  | cancelAll =>
    cases stepped
    exact .cancelledAll
  | poll nowMs currentState submits =>
    cases stepped
    unfold poll
    split
    · rename_i unready
      exact .unpolled nowMs currentState submits (by simpa using unready)
    · rename_i ready
      exact .polled nowMs currentState submits (by simpa using ready) rfl

/-! ### Every job is sane -/

/-- A job is as its schedule call made it: a timed one has an interval, a single one is for one
firing, one that enters a state for any number, and its command passed the checks. -/
structure Sane (job : Job) : Prop where
  interval : job.active = true → job.kind ≠ .onStateEnter → job.intervalMs ≠ 0
  once : job.active = true → job.kind = .once → job.remaining = 1
  onState : job.kind = .onStateEnter → job.remaining = 0
  command : job.active = true → job.command ≠ [] ∧ job.command.length ≤ kMaxCommandLength ∧
    isJobCommand job.command = false

private theorem sane_free : Sane {} where
  interval := nofun
  once := nofun
  onState := nofun
  command := nofun

private theorem sane_cancel {job : Job} (sane : Sane job) : Sane job.cancel where
  interval := nofun
  once := nofun
  onState := sane.onState
  command := nofun

private theorem sane_polled {job : Job} (sane : Sane job) (nowMs : UInt64) : Sane (job.polled nowMs)
    :=
  ⟨sane.interval, sane.once, sane.onState, sane.command⟩

private theorem sane_reschedule {job : Job} (sane : Sane job) (nowMs : UInt64) :
    Sane (job.reschedule nowMs) := by
  unfold Job.reschedule
  split
  · exact ⟨sane.interval, sane.once, sane.onState, sane.command⟩
  · exact ⟨sane.interval, sane.once, sane.onState, sane.command⟩

private theorem sane_fire {job : Job} (sane : Sane job) : Sane job.fire := by
  simp only [Job.fire]
  split
  · rename_i some
    have going {last : Prop} [Decidable last]
        (still : (if last then false else job.active) = true) : ¬ last ∧ job.active = true := by
      split at still
      · cases still
      · exact ⟨‹_›, still⟩
    refine ⟨fun still => sane.interval (going still).2, fun still once => ?_,
      fun onState => absurd (sane.onState onState) some, fun still => sane.command (going still).2⟩
    have one := sane.once (going still).2 once
    exact absurd (by rw [one]; rfl) (going still).1
  · exact ⟨sane.interval, sane.once, sane.onState, sane.command⟩

private theorem sane_pollJob {job : Job} (sane : Sane job) (nowMs : UInt64) (stateEntered : Bool)
    (currentState : UInt8) (accepted : Bool) (stats : Stats) :
    Sane (pollJob nowMs stateEntered currentState accepted job stats).job := by
  have polled := sane_polled sane nowMs
  unfold pollJob
  split
  · exact sane
  dsimp only
  split
  · split
    · exact sane_fire polled
    · exact polled
  split
  · exact ⟨polled.interval, polled.once, polled.onState, polled.command⟩
  split
  · exact sane_fire (sane_reschedule polled nowMs)
  · exact polled

/-- The table: eight slots, each of them sane. -/
structure SaneTable (scheduler : Scheduler) : Prop where
  slots : scheduler.jobs.length = kMaxJobs
  sane : ∀ job ∈ scheduler.jobs, Sane job

theorem saneTable_initial : SaneTable {} where
  slots := rfl
  sane := by
    intro job member
    rw [List.eq_of_mem_replicate member]
    exact sane_free

/-- What a command was checked for. -/
theorem command_checked {scheduler : Scheduler} {command : Option (List UInt8)}
    (checked : commandError scheduler command = none) : command.getD [] ≠ [] ∧
      (command.getD []).length ≤ kMaxCommandLength ∧ isJobCommand (command.getD []) = false := by
  unfold commandError at checked
  split at checked
  · cases checked
  split at checked
  · cases checked
  · rename_i text
    split at checked
    · cases checked
    split at checked
    · cases checked
    split at checked
    · cases checked
    · exact ⟨‹_›, Nat.not_lt.mp ‹_›, Bool.eq_false_iff.mpr ‹_›⟩

private theorem sane_fill {job : Job} (fills : Fills event repeats fill)
    (checked : job.command ≠ [] ∧ job.command.length ≤ kMaxCommandLength ∧
      isJobCommand job.command = false) : Sane (fill job) := by
  cases fills with
  | interval _ positive => exact ⟨fun _ _ => positive, fun _ => nofun, nofun, fun _ => checked⟩
  | once _ positive => exact ⟨fun _ _ => positive, fun _ _ => rfl, nofun, fun _ => checked⟩
  | onState =>
    exact ⟨fun _ timed => absurd rfl timed, fun _ => nofun, fun _ => rfl, fun _ => checked⟩

theorem mem_pollJobs {nowMs : UInt64} {stateEntered : Bool} {currentState : UInt8}
    {submits : List Bool} {jobs : List Job} {stats : Stats} {after : Job}
    (member : after ∈ (pollJobs nowMs stateEntered currentState submits jobs stats).1) :
    ∃ job ∈ jobs, ∃ accepted stats,
      after = (pollJob nowMs stateEntered currentState accepted job stats).job := by
  induction jobs generalizing submits stats with
  | nil => cases member
  | cons job rest ih =>
    obtain rfl | member := List.mem_cons.mp member
    · exact ⟨job, List.mem_cons_self, _, _, rfl⟩
    · obtain ⟨found, inside, polled⟩ := ih member
      exact ⟨found, List.mem_cons_of_mem job inside, polled⟩

private theorem length_pollJobs (nowMs : UInt64) (stateEntered : Bool) (currentState : UInt8)
    (submits : List Bool) (jobs : List Job) (stats : Stats) :
    (pollJobs nowMs stateEntered currentState submits jobs stats).1.length = jobs.length := by
  induction jobs generalizing submits stats with
  | nil => rfl
  | cons job rest ih => exact congrArg (· + 1) (ih ..)

/-- The job in a slot of which one was modified. -/
theorem modify_cases {jobs : List Job} {change : Job → Job} {slot : Nat} {after : Job}
    (member : after ∈ jobs.modify slot change) :
    ∃ job ∈ jobs, after = change job ∨ after = job := by
  obtain ⟨index, held⟩ := List.mem_iff_getElem?.mp member
  rw [List.getElem?_modify] at held
  obtain ⟨before, here, rfl⟩ := Option.map_eq_some_iff.mp held
  refine ⟨before, List.mem_of_getElem? here, ?_⟩
  split
  · exact .inl rfl
  · exact .inr rfl

theorem saneTable_step {scheduler next : Scheduler} {event : Event} (table : SaneTable scheduler)
    (stepped : step scheduler event = some next) : SaneTable next := by
  cases moved_of_step stepped with
  | configured | refused => exact ⟨table.slots, table.sane⟩
  | unknown | unpolled => exact table
  | made fills command checked found =>
    refine ⟨(List.length_set ..).trans table.slots, fun job member => ?_⟩
    obtain inside | rfl := List.mem_or_eq_of_mem_set member
    · exact table.sane job inside
    · exact sane_fill fills (command_checked checked)
  | cancelled _ found =>
    refine ⟨(List.length_modify ..).trans table.slots, fun job member => ?_⟩
    obtain ⟨before, inside, rfl | rfl⟩ := modify_cases member
    · exact sane_cancel (table.sane before inside)
    · exact table.sane job inside
  | cancelledAll =>
    refine ⟨(List.length_map ..).trans table.slots, fun job member => ?_⟩
    obtain ⟨before, inside, rfl⟩ := List.mem_map.mp member
    split
    · exact sane_cancel (table.sane before inside)
    · exact table.sane before inside
  | polled =>
    refine ⟨(length_pollJobs ..).trans table.slots, fun after member => ?_⟩
    obtain ⟨job, inside, _, _, rfl⟩ := mem_pollJobs member
    exact sane_pollJob (table.sane job inside) ..

theorem saneTable_run {events : List Event} {scheduler : Scheduler}
    (ran : run step {} events = some scheduler) : SaneTable scheduler :=
  run_invariant saneTable_step saneTable_initial ran

/-! ### What the calls leave alone -/

/-- The call cancels a job with the id. -/
def Event.cancels (id : UInt8) : Event → Bool
  | .cancel cancelled => cancelled = id
  | .cancelAll => true
  | _ => false

end BallyOS.Jobs
