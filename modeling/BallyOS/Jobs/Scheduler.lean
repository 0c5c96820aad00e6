import BallyOS.Library.ByteText
import BallyOS.Library.Run
import Mathlib.Data.List.Basic

/-! The job table: eight slots, ids from one wrapping counter, and a poll that
fires whatever is due. The clock and the executor's answers come with the poll. -/
namespace BallyOS.Jobs
open Library

def kMaxJobs : Nat := 8
def kMaxCommandLength : Nat := 96
def kNoState : UInt8 := 0xFF

inductive Kind
  | interval | once | onStateEnter
deriving Repr, DecidableEq

inductive Error
  | ok | full | emptyCommand | commandTooLong | badInterval | recursive | notConfigured
deriving Repr, DecidableEq

/-- What nobody keeps about a job: which schedule call made it and for how many
firings, the polls that came by while it was active, how many occurrences were
fired and how many dropped, and whether it was cancelled. -/
structure History where
  serial : Nat := 0
  repeats : UInt32 := 0
  polls : List UInt64 := []
  firings : Nat := 0
  skipped : Nat := 0
  cancelled : Bool := false
deriving Repr, DecidableEq

structure Job where
  active : Bool := false
  kind : Kind := .interval
  id : UInt8 := 0
  state : UInt8 := 0
  intervalMs : UInt32 := 0
  nextMs : UInt64 := 0
  remaining : UInt32 := 0
  fired : UInt32 := 0
  command : List UInt8 := []
  history : History := {}
deriving Repr, DecidableEq

structure Stats where
  fired : UInt32 := 0
  submitFailed : UInt32 := 0
  rejected : UInt32 := 0
  skippedLate : UInt32 := 0
deriving Repr, DecidableEq

/-- `issued` are the ids that schedule calls have returned, in order. -/
structure Scheduler where
  jobs : List Job := List.replicate kMaxJobs {}
  submit : Bool := false
  stats : Stats := {}
  nextId : UInt8 := 1
  lastState : UInt8 := kNoState
  issued : List UInt8 := []
deriving Repr, DecidableEq

def lower (c : UInt8) : UInt8 := if 65 ≤ c ∧ c ≤ 90 then c + 32 else c

/-- Blanks, then the word `job`, then the end, a blank or a dash. -/
def isJobCommand (commandLine : List UInt8) : Bool :=
  let text := commandLine.dropWhile isSpaceOrTab
  (text.take 3).map lower == [106, 111, 98] &&
    match text[3]? with
    | none => true
    | some after => after == 32 || after == 9 || after == 45

/-- Why a command is refused, before a slot is looked for. -/
def commandError (scheduler : Scheduler) (command : Option (List UInt8)) : Option Error :=
  if !scheduler.submit then some .notConfigured
  else match command with
    | none => some .emptyCommand
    | some text =>
      if text = [] then some .emptyCommand
      else if text.length > kMaxCommandLength then some .commandTooLong
      else if isJobCommand text then some .recursive
      else none

def Scheduler.reject (scheduler : Scheduler) (error : Error) : Error × Scheduler :=
  (error, { scheduler with stats.rejected := scheduler.stats.rejected + 1 })

/-- The common part of the schedule calls: the first free slot, with the next id.
`fill` is what the call at hand writes into the slot. -/
def allocate (scheduler : Scheduler) (command : Option (List UInt8)) (repeats : UInt32)
    (fill : Job → Job) : Error × Scheduler :=
  match commandError scheduler command with
  | some error => scheduler.reject error
  | none =>
    match scheduler.jobs.findIdx? fun job => !job.active with
    | none => scheduler.reject .full
    | some slot =>
      let job : Job := {
        active := true
        id := scheduler.nextId
        command := command.getD []
        history := { serial := scheduler.issued.length, repeats := repeats } }
      (.ok, { scheduler with
        jobs := scheduler.jobs.set slot (fill job)
        nextId := if scheduler.nextId = 0xFF then 1 else scheduler.nextId + 1
        issued := scheduler.issued ++ [scheduler.nextId] })

def scheduleInterval (scheduler : Scheduler) (intervalMs repeats : UInt32)
    (command : Option (List UInt8)) : Error × Scheduler :=
  if intervalMs = 0 then scheduler.reject .badInterval
  else allocate scheduler command repeats fun job =>
    { job with kind := .interval, intervalMs := intervalMs, remaining := repeats }

def scheduleOnce (scheduler : Scheduler) (delayMs : UInt32) (command : Option (List UInt8)) :
    Error × Scheduler :=
  if delayMs = 0 then scheduler.reject .badInterval
  else allocate scheduler command 1 fun job =>
    { job with kind := .once, intervalMs := delayMs, remaining := 1 }

def scheduleOnState (scheduler : Scheduler) (state : UInt8) (command : Option (List UInt8)) :
    Error × Scheduler :=
  allocate scheduler command 0 fun job =>
    { job with kind := .onStateEnter, state := state, intervalMs := 0, remaining := 0 }

def Job.cancel (job : Job) : Job := { job with active := false, history.cancelled := true }

/-- The first active job with the id. -/
def cancel (scheduler : Scheduler) (id : UInt8) : Bool × Scheduler :=
  match scheduler.jobs.findIdx? fun job => job.active && job.id = id with
  | none => (false, scheduler)
  | some slot =>
    (true, { scheduler with jobs := scheduler.jobs.modify slot Job.cancel })

def cancelAll (scheduler : Scheduler) : Nat × Scheduler :=
  (scheduler.jobs.countP Job.active, { scheduler with
    jobs := scheduler.jobs.map fun job => if job.active then job.cancel else job })

/-- The note that an active job was looked at. -/
def Job.polled (job : Job) (nowMs : UInt64) : Job :=
  { job with history.polls := job.history.polls ++ [nowMs] }

/-- Whole occurrences that went by: none while the poll is within one interval. -/
def Job.missed (job : Job) (nowMs : UInt64) : UInt64 :=
  let lateness := nowMs - job.nextMs
  if lateness ≥ job.intervalMs.toUInt64 then lateness / job.intervalMs.toUInt64 else 0

/-- What was missed is dropped and the schedule starts anew from now; otherwise it
keeps its phase. -/
def Job.reschedule (job : Job) (nowMs : UInt64) : Job :=
  if nowMs - job.nextMs ≥ job.intervalMs.toUInt64 then
    { job with
      nextMs := nowMs + job.intervalMs.toUInt64
      history.skipped := job.history.skipped + (job.missed nowMs).toNat }
  else { job with nextMs := job.nextMs + job.intervalMs.toUInt64 }

/-- An occurrence is used up, and the last one ends the job. -/
def Job.fire (job : Job) : Job :=
  let job := { job with fired := job.fired + 1, history.firings := job.history.firings + 1 }
  if job.remaining ≠ 0 then
    { job with
      remaining := job.remaining - 1
      active := if job.remaining - 1 = 0 then false else job.active }
  else job

/-- What one job's turn in a poll leaves: the job, the statistics and how many
commands were handed over. -/
structure Turn where
  job : Job
  stats : Stats
  fired : Nat
deriving Repr, DecidableEq

def Turn.submit (accepted : Bool) (job : Job) (stats : Stats) : Turn where
  job := job.fire
  stats := if accepted then { stats with fired := stats.fired + 1 }
    else { stats with submitFailed := stats.submitFailed + 1 }
  fired := if accepted then 1 else 0

/-- The body of the poll's loop. -/
def pollJob (nowMs : UInt64) (stateEntered : Bool) (currentState : UInt8) (accepted : Bool)
    (job : Job) (stats : Stats) : Turn :=
  if !job.active then ⟨job, stats, 0⟩
  else
    let job := job.polled nowMs
    if job.kind = .onStateEnter then
      if stateEntered && job.state = currentState then .submit accepted job stats
      else ⟨job, stats, 0⟩
    else if job.nextMs = 0 then
      ⟨{ job with nextMs := nowMs + job.intervalMs.toUInt64 }, stats, 0⟩
    else if nowMs ≥ job.nextMs then
      .submit accepted (job.reschedule nowMs)
        { stats with skippedLate := stats.skippedLate + (job.missed nowMs).toUInt32 }
    else ⟨job, stats, 0⟩

/-- The loop over the slots; `submit` is what the executor answers for each. -/
def pollJobs (nowMs : UInt64) (stateEntered : Bool) (currentState : UInt8) :
    List Bool → List Job → Stats → List Job × Stats × Nat
  | _, [], stats => ([], stats, 0)
  | submits, job :: rest, stats =>
    let turn := pollJob nowMs stateEntered currentState (submits.headD true) job stats
    let (polled, stats, fired) :=
      pollJobs nowMs stateEntered currentState submits.tail rest turn.stats
    (turn.job :: polled, stats, turn.fired + fired)

def poll (scheduler : Scheduler) (nowMs : UInt64) (currentState : UInt8) (submits : List Bool) :
    Nat × Scheduler :=
  if !scheduler.submit then (0, scheduler)
  else
    let stateEntered := scheduler.lastState ≠ kNoState ∧ currentState ≠ scheduler.lastState
    let (jobs, stats, fired) :=
      pollJobs nowMs stateEntered currentState submits scheduler.jobs scheduler.stats
    (fired, { scheduler with jobs := jobs, stats := stats, lastState := currentState })

inductive Event
  | configure (submit : Bool)
  | scheduleInterval (intervalMs repeats : UInt32) (command : Option (List UInt8))
  | scheduleOnce (delayMs : UInt32) (command : Option (List UInt8))
  | scheduleOnState (state : UInt8) (command : Option (List UInt8))
  | cancel (id : UInt8)
  | cancelAll
  | poll (nowMs : UInt64) (currentState : UInt8) (submits : List Bool)
deriving Repr, DecidableEq

def step : Machine Scheduler Event := fun scheduler event =>
  match event with
  | .configure submit => some { scheduler with submit := submit }
  | .scheduleInterval intervalMs repeats command =>
    some (scheduleInterval scheduler intervalMs repeats command).2
  | .scheduleOnce delayMs command => some (scheduleOnce scheduler delayMs command).2
  | .scheduleOnState state command => some (scheduleOnState scheduler state command).2
  | .cancel id => some (cancel scheduler id).2
  | .cancelAll => some (cancelAll scheduler).2
  | .poll nowMs currentState submits => some (poll scheduler nowMs currentState submits).2

end BallyOS.Jobs
