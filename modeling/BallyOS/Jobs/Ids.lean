import BallyOS.Jobs.Scheduler
import Mathlib.Data.List.Forall2
import Mathlib.Data.List.Nodup

/-! Whether an id names one job. -/
namespace BallyOS.Jobs
open Library

def activeIds (jobs : List Job) : List UInt8 := (jobs.filter Job.active).map Job.id

/-- Ids name jobs: those of the active jobs differ and none is zero, and
cancelling under an id that a schedule call returned stops the job which that
call made, and nothing else. -/
structure Identified (scheduler : Scheduler) : Prop where
  distinct : (activeIds scheduler.jobs).Nodup
  nonzero : 0 ∉ activeIds scheduler.jobs
  cancels : ∀ serial id slot job, scheduler.issued[serial]? = some id →
    scheduler.jobs[slot]? = some job → job.active = true → job.history.serial = serial →
    cancel scheduler id = (true, { scheduler with jobs := scheduler.jobs.modify slot Job.cancel })

/-- Whether a command is let in: an executor is there, the text is one to run,
and a slot is free. -/
def Admits (scheduler : Scheduler) (command : Option (List UInt8)) : Prop :=
  commandError scheduler command = none ∧ ∃ job ∈ scheduler.jobs, job.active = false

/-- The schedule calls that make a job. -/
def Schedules (scheduler : Scheduler) : Event → Prop
  | .scheduleInterval intervalMs _ command => intervalMs ≠ 0 ∧ Admits scheduler command
  | .scheduleOnce delayMs command => delayMs ≠ 0 ∧ Admits scheduler command
  | .scheduleOnState _ command => Admits scheduler command
  | _ => False

/-- A job is made while one that is still active has the id it gets. -/
def Reuses (scheduler : Scheduler) (event : Event) : Prop :=
  Schedules scheduler event ∧ scheduler.nextId ∈ activeIds scheduler.jobs

/-! ### Jobs go on -/

/-- What a poll or a cancel does to a job: it may end it, and never renames it. -/
structure Continues (before after : Job) : Prop where
  id : after.id = before.id
  serial : after.history.serial = before.history.serial
  active : after.active = true → before.active = true

private theorem continues_refl (job : Job) : Continues job job := ⟨rfl, rfl, id⟩

private theorem continues_cancel (job : Job) : Continues job job.cancel := ⟨rfl, rfl, nofun⟩

private theorem continues_fire {before job : Job} (goes : Continues before job) :
    Continues before job.fire := by
  simp only [Job.fire]
  split
  · refine ⟨goes.id, goes.serial, fun still => goes.active ?_⟩
    dsimp only at still
    split at still
    · cases still
    · exact still
  · exact ⟨goes.id, goes.serial, goes.active⟩

private theorem continues_reschedule {before job : Job} (goes : Continues before job)
    (nowMs : UInt64) :
    Continues before (job.reschedule nowMs) := by
  unfold Job.reschedule
  split
  · exact ⟨goes.id, goes.serial, goes.active⟩
  · exact ⟨goes.id, goes.serial, goes.active⟩

private theorem continues_pollJob (nowMs : UInt64) (stateEntered : Bool) (currentState : UInt8)
    (accepted : Bool) (job : Job) (stats : Stats) :
    Continues job (pollJob nowMs stateEntered currentState accepted job stats).job := by
  have polled : Continues job (job.polled nowMs) := ⟨rfl, rfl, id⟩
  unfold pollJob
  split
  · exact continues_refl job
  dsimp only
  split
  · split
    · exact continues_fire polled
    · exact polled
  split
  · exact ⟨rfl, rfl, id⟩
  split
  · exact continues_fire (continues_reschedule polled nowMs)
  · exact polled

private theorem continues_pollJobs (nowMs : UInt64) (stateEntered : Bool) (currentState : UInt8)
    (submits : List Bool) (jobs : List Job) (stats : Stats) :
    List.Forall₂ Continues jobs
      (pollJobs nowMs stateEntered currentState submits jobs stats).1 := by
  induction jobs generalizing submits stats with
  | nil => exact .nil
  | cons job rest ih => exact .cons (continues_pollJob ..) (ih ..)

private theorem continues_modify (jobs : List Job) (slot : Nat) :
    List.Forall₂ Continues jobs (jobs.modify slot Job.cancel) := by
  induction jobs generalizing slot with
  | nil =>
    rw [List.modify_nil]
    exact .nil
  | cons job rest ih =>
    cases slot with
    | zero =>
      exact .cons (continues_cancel job) (List.forall₂_same.mpr fun job _ => continues_refl job)
    | succ slot => exact .cons (continues_refl job) (ih slot)

private theorem continues_cancelAll (jobs : List Job) : List.Forall₂ Continues jobs
    (jobs.map fun job => if job.active then job.cancel else job) := by
  induction jobs with
  | nil => exact .nil
  | cons job rest ih =>
    refine .cons ?_ ih
    dsimp only
    split
    · exact continues_cancel job
    · exact continues_refl job

/-- What goes on holds no id that was not held. -/
theorem activeIds_sublist {before after : List Job}
    (goes : List.Forall₂ Continues before after) :
    (activeIds after).Sublist (activeIds before) := by
  induction goes with
  | nil => exact .slnil
  | @cons job next before after one rest ih =>
    unfold activeIds at ih ⊢
    cases still : next.active with
    | false =>
      rw [List.filter_cons_of_neg (by simp [still])]
      cases was : job.active with
      | false =>
        rw [List.filter_cons_of_neg (by simp [was])]
        exact ih
      | true =>
        rw [List.filter_cons_of_pos was, List.map_cons]
        exact ih.cons job.id
    | true =>
      rw [List.filter_cons_of_pos still, List.filter_cons_of_pos (one.active still),
        List.map_cons, List.map_cons, one.id]
      exact ih.cons_cons job.id

/-! ### Every call -/

/-- The call made a job in a free slot, under the next id. -/
def Made (scheduler next : Scheduler) : Prop :=
  ∃ slot old job, scheduler.jobs[slot]? = some old ∧ old.active = false ∧
    next.jobs = scheduler.jobs.set slot job ∧ job.active = true ∧
    job.id = scheduler.nextId ∧ job.history.serial = scheduler.issued.length ∧
    next.nextId = (if scheduler.nextId = 0xFF then 1 else scheduler.nextId + 1) ∧
    next.issued = scheduler.issued ++ [scheduler.nextId]

/-- The call let the jobs go on as they were, or ended some. -/
def WentOn (scheduler next : Scheduler) : Prop :=
  List.Forall₂ Continues scheduler.jobs next.jobs ∧ next.nextId = scheduler.nextId ∧
    next.issued = scheduler.issued

private theorem wentOn_reject (scheduler : Scheduler) (error : Error) :
    WentOn scheduler (scheduler.reject error).2 :=
  ⟨List.forall₂_same.mpr fun job _ => continues_refl job, rfl, rfl⟩

private theorem allocate_cases (scheduler : Scheduler) (command : Option (List UInt8))
    (repeats : UInt32)
    (fill : Job → Job) (fills : ∀ job, (fill job).active = job.active ∧ (fill job).id = job.id ∧
      (fill job).history = job.history) :
    (¬ Admits scheduler command ∧
      WentOn scheduler (allocate scheduler command repeats fill).2) ∨
    (Admits scheduler command ∧ Made scheduler (allocate scheduler command repeats fill).2) := by
  unfold allocate
  cases checked : commandError scheduler command with
  | some error =>
    refine .inl ⟨fun admits => ?_, wentOn_reject scheduler error⟩
    exact absurd (checked.symm.trans admits.1) nofun
  | none =>
    cases found : scheduler.jobs.findIdx? fun job => !job.active with
    | none =>
      refine .inl ⟨fun admits => ?_, wentOn_reject scheduler .full⟩
      obtain ⟨-, job, member, free⟩ := admits
      have taken := List.findIdx?_eq_none_iff.mp found job member
      simp [free] at taken
    | some slot =>
      obtain ⟨inside, free, -⟩ := List.findIdx?_eq_some_iff_getElem.mp found
      have idle : scheduler.jobs[slot].active = false := by simpa using free
      refine .inr ⟨⟨checked, _, List.getElem_mem inside, idle⟩, slot, scheduler.jobs[slot], _,
        List.getElem?_eq_getElem inside, idle, rfl, ?_, ?_, ?_, rfl, rfl⟩
      · exact (fills _).1
      · exact (fills _).2.1
      · rw [(fills _).2.2]

private theorem step_cases {scheduler next : Scheduler} {event : Event}
    (stepped : step scheduler event = some next) :
    (¬ Schedules scheduler event ∧ WentOn scheduler next) ∨
      (Schedules scheduler event ∧ Made scheduler next) := by
  cases event with
  | configure submit =>
    cases stepped
    exact .inl ⟨id, List.forall₂_same.mpr fun job _ => continues_refl job, rfl, rfl⟩
  | scheduleInterval intervalMs repeats command =>
    cases stepped
    unfold scheduleInterval
    split
    · rename_i zero
      exact .inl ⟨fun schedules => schedules.1 zero, wentOn_reject ..⟩
    · rename_i positive
      obtain ⟨refused, went⟩ | ⟨admits, made⟩ := allocate_cases scheduler command repeats
        (fun job => { job with kind := .interval, intervalMs := intervalMs, remaining := repeats })
        fun _ => ⟨rfl, rfl, rfl⟩
      · exact .inl ⟨fun schedules => refused schedules.2, went⟩
      · exact .inr ⟨⟨positive, admits⟩, made⟩
  | scheduleOnce delayMs command =>
    cases stepped
    unfold scheduleOnce
    split
    · rename_i zero
      exact .inl ⟨fun schedules => schedules.1 zero, wentOn_reject ..⟩
    · rename_i positive
      obtain ⟨refused, went⟩ | ⟨admits, made⟩ := allocate_cases scheduler command 1
        (fun job => { job with kind := .once, intervalMs := delayMs, remaining := 1 })
        fun _ => ⟨rfl, rfl, rfl⟩
      · exact .inl ⟨fun schedules => refused schedules.2, went⟩
      · exact .inr ⟨⟨positive, admits⟩, made⟩
  | scheduleOnState state command =>
    cases stepped
    exact allocate_cases scheduler command 0 _ fun _ => ⟨rfl, rfl, rfl⟩
  | cancel id =>
    cases stepped
    refine .inl ⟨not_false, ?_⟩
    unfold cancel
    split
    · exact ⟨List.forall₂_same.mpr fun job _ => continues_refl job, rfl, rfl⟩
    · exact ⟨continues_modify .., rfl, rfl⟩
  | cancelAll =>
    cases stepped
    exact .inl ⟨not_false, continues_cancelAll .., rfl, rfl⟩
  | poll nowMs currentState submits =>
    cases stepped
    refine .inl ⟨not_false, ?_⟩
    unfold poll
    split
    · exact ⟨List.forall₂_same.mpr fun job _ => continues_refl job, rfl, rfl⟩
    · exact ⟨continues_pollJobs .., rfl, rfl⟩

/-- What holds of every scheduler: the ids it gives out are not zero, and an active
job has the id that the call which made it returned. -/
structure Formed (scheduler : Scheduler) : Prop where
  nextId : scheduler.nextId ≠ 0
  nonzero : ∀ job ∈ scheduler.jobs, job.active = true → job.id ≠ 0
  issued : ∀ job ∈ scheduler.jobs, job.active = true →
    scheduler.issued[job.history.serial]? = some job.id

private theorem mem_of_goes {before after : List Job} (goes : List.Forall₂ Continues before after)
    (member : next ∈ after) : ∃ job ∈ before, Continues job next := by
  induction goes with
  | nil => exact absurd member List.not_mem_nil
  | @cons job other before after one rest ih =>
    obtain rfl | member := List.mem_cons.mp member
    · exact ⟨job, List.mem_cons_self, one⟩
    · obtain ⟨held, inside, goes⟩ := ih member
      exact ⟨held, List.mem_cons_of_mem job inside, goes⟩

private theorem formed_initial : Formed {} where
  nextId := by decide
  nonzero := by decide
  issued := by decide

private theorem formed_step {scheduler next : Scheduler} {event : Event} (formed : Formed scheduler)
    (stepped : step scheduler event = some next) : Formed next := by
  obtain ⟨-, goes, nextId, issued⟩ | ⟨-, slot, old, job, held, free, jobs, active, id, serial,
    nextId, issued⟩ := step_cases stepped
  · refine ⟨nextId ▸ formed.nextId, fun after member still => ?_, fun after member still => ?_⟩
    · obtain ⟨job, inside, one⟩ := mem_of_goes goes member
      rw [one.id]
      exact formed.nonzero job inside (one.active still)
    · obtain ⟨job, inside, one⟩ := mem_of_goes goes member
      rw [issued, one.id, one.serial]
      exact formed.issued job inside (one.active still)
  · refine ⟨?_, fun after member still => ?_, fun after member still => ?_⟩
    · rw [nextId]
      split
      · decide
      · rename_i last
        have below := scheduler.nextId.toNat_lt
        intro wrapped
        have zero := congrArg UInt8.toNat wrapped
        have notLast : scheduler.nextId.toNat ≠ 255 := fun same => last (UInt8.toNat_inj.mp same)
        simp only [UInt8.toNat_add, UInt8.reduceToNat] at zero
        omega
    · rw [jobs] at member
      obtain inside | rfl := List.mem_or_eq_of_mem_set member
      · exact formed.nonzero after inside still
      · rw [id]
        exact formed.nextId
    · rw [jobs] at member
      obtain inside | rfl := List.mem_or_eq_of_mem_set member
      · have before := formed.issued after inside still
        rw [issued, List.getElem?_append_left (List.getElem?_eq_some_iff.mp before).1]
        exact before
      · rw [issued, serial, id, List.getElem?_concat_length]

private theorem activeIds_append (first second : List Job) :
    activeIds (first ++ second) = activeIds first ++ activeIds second := by
  simp [activeIds]

/-- The ids are told apart after a job is made exactly if its id is none of those held. -/
theorem nodup_made {jobs : List Job} {slot : Nat} {old job : Job} (held : jobs[slot]? = some old)
    (free : old.active = false) (active : job.active = true) :
    (activeIds (jobs.set slot job)).Nodup ↔
      (activeIds jobs).Nodup ∧ job.id ∉ activeIds jobs := by
  obtain ⟨inside, here⟩ := List.getElem?_eq_some_iff.mp held
  have split : jobs = jobs.take slot ++ old :: jobs.drop (slot + 1) := by
    rw [← here, List.getElem_cons_drop, List.take_append_drop]
  have before :
      activeIds jobs = activeIds (jobs.take slot) ++ activeIds (jobs.drop (slot + 1)) := by
    conv_lhs => rw [split, activeIds_append]
    simp [activeIds, free]
  have after : activeIds (jobs.set slot job) =
      activeIds (jobs.take slot) ++ job.id :: activeIds (jobs.drop (slot + 1)) := by
    rw [List.set_eq_take_append_cons_drop, if_pos inside, activeIds_append]
    simp [activeIds, active]
  rw [after, before, List.nodup_middle, List.nodup_cons, and_comm]

/-- Told apart, every active job is the first with its id. -/
theorem cancels_of_distinct {scheduler : Scheduler} (distinct : (activeIds scheduler.jobs).Nodup)
    {slot : Nat} {job : Job} (held : scheduler.jobs[slot]? = some job)
    (active : job.active = true) : cancel scheduler job.id =
      (true, { scheduler with jobs := scheduler.jobs.modify slot Job.cancel }) := by
  obtain ⟨inside, here⟩ := List.getElem?_eq_some_iff.mp held
  have split : scheduler.jobs =
      scheduler.jobs.take slot ++ job :: scheduler.jobs.drop (slot + 1) := by
    rw [← here, List.getElem_cons_drop, List.take_append_drop]
  have ids : activeIds scheduler.jobs = activeIds (scheduler.jobs.take slot) ++
      job.id :: activeIds (scheduler.jobs.drop (slot + 1)) := by
    conv_lhs => rw [split, activeIds_append]
    simp [activeIds, active]
  rw [ids, List.nodup_middle, List.nodup_cons] at distinct
  have found : (scheduler.jobs.findIdx? fun other => other.active && other.id = job.id) =
      some slot := by
    refine List.findIdx?_eq_some_iff_getElem.mpr ⟨inside, ?_, fun earlier before => ?_⟩
    · simp [here, active]
    · intro same
      simp only [Bool.and_eq_true, decide_eq_true_eq] at same
      have taken : scheduler.jobs[earlier] ∈ scheduler.jobs.take slot :=
        List.mem_take_iff_getElem.mpr ⟨earlier, by omega, rfl⟩
      refine distinct.1 (List.mem_append_left _ (List.mem_map.mpr ⟨_, ?_, same.2⟩))
      exact List.mem_filter.mpr ⟨taken, same.1⟩
  simp only [cancel, found]

private theorem identified_iff {scheduler : Scheduler} (formed : Formed scheduler) :
    Identified scheduler ↔ (activeIds scheduler.jobs).Nodup := by
  refine ⟨fun identified => identified.distinct, fun distinct => ⟨distinct, ?_, ?_⟩⟩
  · intro member
    obtain ⟨job, inside, zero⟩ := List.mem_map.mp member
    obtain ⟨inside, active⟩ := List.mem_filter.mp inside
    exact formed.nonzero job inside active zero
  · intro serial id slot job returned held active same
    have issued := formed.issued job (List.mem_of_getElem? held) active
    rw [same] at issued
    cases issued.symm.trans returned
    exact cancels_of_distinct distinct held active

/-- In every run, ids name jobs in every state reached exactly when no job is made
while an active one has the id it gets. -/
theorem ids_identify_iff (events : List Event) :
    Along step (fun scheduler event => ∀ next, step scheduler event = some next →
        Identified next) {} events ↔
      Along step (fun scheduler event => ¬ Reuses scheduler event) {} events := by
  refine along_keeps_iff formed_step ?_ formed_initial ((identified_iff formed_initial).mpr
    (by decide)) events
  intro scheduler event formed identified
  constructor
  · rintro keeps ⟨schedules, taken⟩
    obtain ⟨next, stepped⟩ : ∃ next, step scheduler event = some next := by
      cases event <;> exact ⟨_, rfl⟩
    obtain ⟨refused, -⟩ | ⟨-, slot, old, job, held, free, jobs, active, id, -⟩ :=
      step_cases stepped
    · exact refused schedules
    · have distinct := (keeps next stepped).distinct
      rw [jobs, nodup_made held free active, id] at distinct
      exact distinct.2 taken
  · intro fresh next stepped
    apply (identified_iff (formed_step formed stepped)).mpr
    obtain ⟨-, goes, -⟩ | ⟨schedules, slot, old, job, held, free, jobs, active, id, -⟩ :=
      step_cases stepped
    · exact identified.distinct.sublist (activeIds_sublist goes)
    · rw [jobs, nodup_made held free active, id]
      exact ⟨identified.distinct, fun taken => fresh ⟨schedules, taken⟩⟩

/-- One job is scheduled and left alone; two hundred and fifty four are scheduled and
cancelled after it, and then one more. -/
def outlived : List Event :=
  [.configure true, .scheduleInterval 1000 0 (some [115])] ++
    (List.range 254).flatMap (fun count =>
      [.scheduleOnce 1000 (some [115]), .cancel (UInt8.ofNat (count + 2))]) ++
    [.scheduleOnce 1000 (some [115])]

/-- The last job gets the first one's id. -/
theorem id_of_two_jobs : ¬ ∀ (events : List Event) (scheduler : Scheduler),
    run step {} events = some scheduler → (activeIds scheduler.jobs).Nodup := by
  intro always
  have twice : (run step {} outlived).any (fun scheduler =>
      activeIds scheduler.jobs == [1, 1]) = true := by decide +kernel
  obtain ⟨scheduler, ran, ids⟩ := (Option.any_eq_true _ _).mp twice
  have distinct := always outlived scheduler ran
  rw [eq_of_beq ids] at distinct
  exact absurd distinct (by decide)

end BallyOS.Jobs
