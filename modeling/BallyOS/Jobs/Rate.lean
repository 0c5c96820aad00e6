import Mathlib.Algebra.Group.Nat.Defs
import BallyOS.Jobs.Table
import BallyOS.Library.Cadence

/-! How often a timed job fires, over any run of polls and other calls. -/
namespace BallyOS.Jobs
open Library

def Job.cadence (job : Job) : Cadence :=
  ⟨job.nextMs.toNat, job.history.firings, job.history.skipped⟩

/-- The polls that a job was active in, as times. -/
def Job.looks (job : Job) : List Nat := job.history.polls.map UInt64.toNat

/-- A timed job goes by its cadence from the first poll it was active in. -/
structure Timed (job : Job) : Prop where
  unpolled : job.history.polls = [] →
    job.nextMs = 0 ∧ job.history.firings = 0 ∧ job.history.skipped = 0
  within : ∀ first last, job.looks.head? = some first → job.looks.getLast? = some last →
    Cadence.Within job.intervalMs.toNat first last job.cadence
  punctual : ∀ first last, job.looks.head? = some first → job.looks.getLast? = some last →
    Cadence.Attended job.intervalMs.toNat first job.looks last →
    Cadence.Punctual job.intervalMs.toNat first job.cadence

/-- What is left of the firings that a job was made for. -/
structure Limited (job : Job) : Prop where
  unlimited : job.history.repeats = 0 → job.remaining = 0 ∧
    (job.active = true ∨ job.history.cancelled = true)
  limited : job.history.repeats ≠ 0 →
    job.remaining.toNat + job.history.firings = job.history.repeats.toNat ∧
      (job.active = true → job.remaining ≠ 0)

/-- The jobs that time fires. -/
def Job.Ticks (job : Job) : Prop := job.kind ≠ .onStateEnter ∧ job.intervalMs ≠ 0

/-- One interval after any poll is still a time that the clock can tell. -/
def Job.Fits (job : Job) : Prop :=
  ∀ look ∈ job.looks, look + job.intervalMs.toNat < 2 ^ 64

private theorem toNat_add_interval {time : UInt64} {interval : UInt32}
    (fits : time.toNat + interval.toNat < 2 ^ 64) :
    (time + interval.toUInt64).toNat = time.toNat + interval.toNat := by
  rw [UInt64.toNat_add, UInt32.toNat_toUInt64, Nat.mod_eq_of_lt fits]

private theorem cadence_fire (job : Job) :
    job.fire.cadence = { job.cadence with fired := job.history.firings + 1 } := by
  simp only [Job.fire]
  split <;> rfl

private theorem intervalMs_fire (job : Job) : job.fire.intervalMs = job.intervalMs := by
  simp only [Job.fire]
  split <;> rfl

private theorem polls_fire (job : Job) : job.fire.history.polls = job.history.polls := by
  simp only [Job.fire]
  split <;> rfl

private theorem frame_reschedule (job : Job) (nowMs : UInt64) :
    (job.reschedule nowMs).intervalMs = job.intervalMs ∧
      (job.reschedule nowMs).history.polls = job.history.polls ∧
      (job.reschedule nowMs).history.firings = job.history.firings ∧
      (job.reschedule nowMs).history.repeats = job.history.repeats ∧
      (job.reschedule nowMs).history.cancelled = job.history.cancelled ∧
      (job.reschedule nowMs).remaining = job.remaining ∧
      (job.reschedule nowMs).active = job.active := by
  unfold Job.reschedule
  split
  · exact ⟨rfl, rfl, rfl, rfl, rfl, rfl, rfl⟩
  · exact ⟨rfl, rfl, rfl, rfl, rfl, rfl, rfl⟩

/-- An occurrence that is due is one look at the cadence. -/
theorem cadence_due {job : Job} {nowMs : UInt64} (due : job.nextMs ≤ nowMs)
    (fits : nowMs.toNat + job.intervalMs.toNat < 2 ^ 64) :
    (job.reschedule nowMs).fire.cadence =
      job.cadence.look job.intervalMs.toNat nowMs.toNat := by
  have reached : job.nextMs.toNat ≤ nowMs.toNat := UInt64.le_iff_toNat_le.mp due
  have lateness : (nowMs - job.nextMs).toNat = nowMs.toNat - job.nextMs.toNat :=
    UInt64.toNat_sub_of_le _ _ due
  have late_iff : nowMs - job.nextMs ≥ job.intervalMs.toUInt64 ↔
      job.intervalMs.toNat ≤ nowMs.toNat - job.nextMs.toNat := by
    rw [ge_iff_le, UInt64.le_iff_toNat_le, UInt32.toNat_toUInt64, lateness]
  have onward : ¬ nowMs.toNat < job.cadence.next := Nat.not_lt.mpr reached
  have before : job.nextMs.toNat + job.intervalMs.toNat < 2 ^ 64 := by omega
  rw [cadence_fire, (frame_reschedule job nowMs).2.2.1, Cadence.look, if_neg onward]
  unfold Job.reschedule
  by_cases late : job.intervalMs.toNat ≤ nowMs.toNat - job.nextMs.toNat
  · rw [if_pos (late_iff.mpr late), if_pos (show _ ≤ nowMs.toNat - job.cadence.next from late)]
    simp only [Job.cadence, toNat_add_interval fits, Job.missed, if_pos (late_iff.mpr late),
      UInt64.toNat_div, UInt32.toNat_toUInt64, lateness]
  · rw [if_neg (mt late_iff.mp late),
      if_neg (show ¬ _ ≤ nowMs.toNat - job.cadence.next from late)]
    simp only [Job.cadence, toNat_add_interval before]

/-- What a poll makes of an active timed job, whatever the executor answers. -/
theorem pollJob_timed {job : Job} (active : job.active = true) (ticks : job.Ticks)
    (nowMs : UInt64) (stateEntered : Bool) (currentState : UInt8) (accepted : Bool)
    (stats : Stats) :
    (pollJob nowMs stateEntered currentState accepted job stats).job =
      if job.nextMs = 0 then
        { job.polled nowMs with nextMs := nowMs + job.intervalMs.toUInt64 }
      else if nowMs ≥ job.nextMs then ((job.polled nowMs).reschedule nowMs).fire
      else job.polled nowMs := by
  have running : ¬ (!job.active) = true := by simp [active]
  have timed : ¬ (job.polled nowMs).kind = .onStateEnter := ticks.1
  simp only [pollJob, if_neg running, if_neg timed]
  change (if job.nextMs = 0 then _ else if nowMs ≥ job.nextMs then _ else _ : Turn).job = _
  split
  · rfl
  split
  · rfl
  · rfl

private theorem le_getLast {looks : List Nat} (sorted : looks.Pairwise (· ≤ ·))
    (tail : looks.getLast? = some last) (member : look ∈ looks) : look ≤ last := by
  obtain ⟨before, rfl⟩ := List.getLast?_eq_some_iff.mp tail
  obtain earlier | same := List.mem_append.mp member
  · exact (List.pairwise_append.mp sorted).2.2 look earlier last (List.mem_singleton_self last)
  · exact Nat.le_of_eq (List.mem_singleton.mp same)

private theorem interval_pos {job : Job} (ticks : job.Ticks) : 0 < job.intervalMs.toNat :=
  Nat.pos_of_ne_zero fun zero => ticks.2 (UInt32.toNat_inj.mp zero)

/-- The first poll sets the schedule off. -/
theorem timed_anchored {job after : Job} (timed : Timed job) (ticks : job.Ticks)
    {nowMs : UInt64} (fits : nowMs.toNat + job.intervalMs.toNat < 2 ^ 64)
    (first : job.history.polls = [])
    (anchored : after = { job.polled nowMs with
      nextMs := nowMs + job.intervalMs.toUInt64 }) : Timed after := by
  obtain ⟨-, firings, skipped⟩ := timed.unpolled first
  have looks : after.looks = [nowMs.toNat] := by
    simp [anchored, Job.looks, Job.polled, first]
  have started : after.cadence = .start job.intervalMs.toNat nowMs.toNat := by
    simp only [anchored, Job.cadence, Job.polled, toNat_add_interval fits, firings, skipped]
    rfl
  have interval : after.intervalMs = job.intervalMs := by
    rw [anchored]
    rfl
  refine ⟨fun none => ?_, fun first last head tail => ?_, fun first last head tail _ => ?_⟩
  · rw [Job.looks, none] at looks
    cases looks
  · rw [looks] at head tail
    cases head
    cases tail
    rw [started, interval]
    exact Cadence.within_start (interval_pos ticks) _
  · rw [looks] at head tail
    cases head
    cases tail
    rw [started, interval]
    exact Cadence.punctual_start _ _

/-- Every later poll is a look. -/
theorem timed_looked {job after : Job} (timed : Timed job) (ticks : job.Ticks) {nowMs : UInt64}
    (onward : ∀ look ∈ job.looks, look ≤ nowMs.toNat) (sorted : job.looks.Pairwise (· ≤ ·))
    (polled : job.history.polls ≠ []) (looks : after.looks = job.looks ++ [nowMs.toNat])
    (interval : after.intervalMs = job.intervalMs)
    (looked : after.cadence = job.cadence.look job.intervalMs.toNat nowMs.toNat) :
    Timed after := by
  have held : job.looks ≠ [] := fun none => polled (List.map_eq_nil_iff.mp none)
  obtain ⟨start, head⟩ : ∃ start, job.looks.head? = some start :=
    ⟨_, List.head?_eq_some_head held⟩
  obtain ⟨latest, tail⟩ : ∃ latest, job.looks.getLast? = some latest :=
    ⟨_, List.getLast?_eq_some_getLast held⟩
  have within := timed.within start latest head tail
  have begins : after.looks.head? = some start := by
    rw [looks, List.head?_append, head]
    rfl
  have ends : after.looks.getLast? = some nowMs.toNat := by
    rw [looks, List.getLast?_concat]
  have passed : latest ≤ nowMs.toNat := onward latest (List.mem_of_getLast? tail)
  refine ⟨fun none => ?_, fun first last head' tail' => ?_,
    fun first last head' tail' attended => ?_⟩
  · rw [Job.looks, none] at looks
    exact absurd looks (by simp)
  · cases begins.symm.trans head'
    cases ends.symm.trans tail'
    rw [looked, interval]
    exact Cadence.within_look (interval_pos ticks) within passed
  · cases begins.symm.trans head'
    cases ends.symm.trans tail'
    rw [looks, interval] at attended
    rw [looked, interval]
    have before := Cadence.attended_of_append attended passed
    exact Cadence.punctual_look within (timed.punctual start latest head tail before)
      (fun look member => le_getLast sorted tail member) attended

/-- One poll of a job that goes by its cadence. -/
theorem timed_pollJob {job : Job} (timed : Timed job) (active : job.active = true)
    (ticks : job.Ticks) {nowMs : UInt64} (fits : nowMs.toNat + job.intervalMs.toNat < 2 ^ 64)
    (onward : ∀ look ∈ job.looks, look ≤ nowMs.toNat) (sorted : job.looks.Pairwise (· ≤ ·))
    (stateEntered : Bool) (currentState : UInt8) (accepted : Bool) (stats : Stats) :
    Timed (pollJob nowMs stateEntered currentState accepted job stats).job := by
  rw [pollJob_timed active ticks]
  by_cases first : job.history.polls = []
  · rw [if_pos (timed.unpolled first).1]
    exact timed_anchored timed ticks fits first rfl
  have held : job.looks ≠ [] := fun none => first (List.map_eq_nil_iff.mp none)
  have within := timed.within _ _ (List.head?_eq_some_head held)
    (List.getLast?_eq_some_getLast held)
  have set : job.nextMs ≠ 0 := by
    intro zero
    have later := within.later
    rw [Job.cadence, zero] at later
    exact absurd later (Nat.not_lt_zero _)
  rw [if_neg set]
  by_cases due : nowMs ≥ job.nextMs
  · rw [if_pos due]
    have frame := frame_reschedule (job.polled nowMs) nowMs
    refine timed_looked timed ticks onward sorted first ?_ ?_ ?_
    · rw [Job.looks, polls_fire, frame.2.1]
      simp [Job.looks, Job.polled]
    · rw [intervalMs_fire, frame.1]
      rfl
    · exact @cadence_due (job.polled nowMs) nowMs due fits
  · rw [if_neg due]
    refine timed_looked timed ticks onward sorted first ?_ rfl ?_
    · simp [Job.looks, Job.polled]
    · have before : nowMs.toNat < job.cadence.next :=
        UInt64.lt_iff_toNat_lt.mp (UInt64.not_le.mp due)
      rw [Cadence.look, if_pos before]
      rfl

/-! ### What is left -/

private theorem limited_fire {job : Job} (limited : Limited job) (active : job.active = true) :
    Limited job.fire := by
  obtain ⟨unlimited, counted⟩ := limited
  simp only [Job.fire]
  split
  · rename_i left
    have some : job.history.repeats ≠ 0 := fun none => left (unlimited none).1
    obtain ⟨sum, -⟩ := counted some
    have positive : job.remaining.toNat ≠ 0 := fun zero => left (UInt32.toNat_inj.mp zero)
    have one : (1 : UInt32) ≤ job.remaining := by
      rw [UInt32.le_iff_toNat_le]
      exact Nat.one_le_iff_ne_zero.mpr positive
    refine ⟨fun none => absurd none some, fun _ => ⟨?_, fun still => ?_⟩⟩
    · have less : (job.remaining - 1).toNat = job.remaining.toNat - 1 :=
        UInt32.toNat_sub_of_le _ _ one
      dsimp only
      omega
    · intro done
      dsimp only at still done
      rw [if_pos done] at still
      cases still
  · rename_i none
    have zero : job.remaining = 0 := not_not.mp none
    refine ⟨unlimited, fun some => ?_⟩
    exact absurd zero ((counted some).2 active)

/-- What holds of every job in the table, timed or not: `clock` is the latest poll. -/
structure Ticking (clock : Nat) (job : Job) : Prop where
  timed : job.Ticks → job.Fits → Timed job
  limited : job.Ticks → Limited job
  sorted : job.looks.Pairwise (· ≤ ·)
  passed : ∀ look ∈ job.looks, look ≤ clock

private theorem ticking_later {job : Job} (ticking : Ticking clock job) (onward : clock ≤ now) :
    Ticking now job :=
  ⟨ticking.timed, ticking.limited, ticking.sorted,
    fun look member => Nat.le_trans (ticking.passed look member) onward⟩

private theorem ticking_cancel {job : Job} (ticking : Ticking clock job) : Ticking clock job.cancel
    where
  timed := fun ticks fits =>
    have timed := ticking.timed ticks fits
    ⟨timed.unpolled, timed.within, timed.punctual⟩
  limited := fun ticks =>
    ⟨fun none => ⟨((ticking.limited ticks).unlimited none).1, .inr rfl⟩,
      fun some => ⟨((ticking.limited ticks).limited some).1, nofun⟩⟩
  sorted := ticking.sorted
  passed := ticking.passed

/-- A job that has only just been made. -/
theorem ticking_new {job : Job} (new : job.history.polls = []) (untimed : job.nextMs = 0)
    (unfired : job.history.firings = 0) (unskipped : job.history.skipped = 0)
    (active : job.active = true) (whole : job.Ticks → job.remaining = job.history.repeats)
    (clock : Nat) : Ticking clock job := by
  have looks : job.looks = [] := by rw [Job.looks, new, List.map_nil]
  refine ⟨fun _ _ => ⟨fun _ => ⟨untimed, unfired, unskipped⟩, ?_, ?_⟩, fun ticks => ?_, ?_, ?_⟩
  · intro first last head
    rw [looks] at head
    cases head
  · intro first last head
    rw [looks] at head
    cases head
  · refine ⟨fun none => ⟨(whole ticks).trans none, .inl active⟩, fun some => ⟨?_, fun _ => ?_⟩⟩
    · rw [whole ticks, unfired, Nat.add_zero]
    · rw [whole ticks]
      exact some
  · rw [looks]
    exact .nil
  · rw [looks]
    exact fun _ member => absurd member List.not_mem_nil

/-- What a poll leaves alone of a job, and how much it can use up of it. -/
structure Polled (nowMs : UInt64) (job after : Job) : Prop where
  kind : after.kind = job.kind
  interval : after.intervalMs = job.intervalMs
  repeats : after.history.repeats = job.history.repeats
  cancelled : after.history.cancelled = job.history.cancelled
  polls : after.history.polls =
    if job.active then job.history.polls ++ [nowMs] else job.history.polls
  firings : after.history.firings ≤ job.history.firings + 1

private theorem polled_fire {job before : Job} (polled : Polled nowMs job before)
    (unused : before.history.firings = job.history.firings) : Polled nowMs job before.fire := by
  obtain ⟨kind, interval, repeats, cancelled, polls, -⟩ := polled
  have one : before.history.firings + 1 ≤ job.history.firings + 1 :=
    Nat.le_of_eq (by rw [unused])
  simp only [Job.fire]
  split
  · exact ⟨kind, interval, repeats, cancelled, polls, one⟩
  · exact ⟨kind, interval, repeats, cancelled, polls, one⟩

private theorem polled_reschedule {job before : Job} (polled : Polled nowMs job before) :
    Polled nowMs job (before.reschedule nowMs) := by
  obtain ⟨kind, interval, repeats, cancelled, polls, firings⟩ := polled
  unfold Job.reschedule
  split
  · exact ⟨kind, interval, repeats, cancelled, polls, firings⟩
  · exact ⟨kind, interval, repeats, cancelled, polls, firings⟩

private theorem polled_pollJob (nowMs : UInt64) (stateEntered : Bool) (currentState : UInt8)
    (accepted : Bool) (job : Job) (stats : Stats) :
    Polled nowMs job (pollJob nowMs stateEntered currentState accepted job stats).job := by
  unfold pollJob
  split
  · rename_i idle
    have inactive : ¬ job.active = true := by simpa using idle
    exact ⟨rfl, rfl, rfl, rfl, (if_neg inactive).symm, Nat.le_succ _⟩
  rename_i running
  have active : job.active = true := by simpa using running
  have seen : Polled nowMs job (job.polled nowMs) :=
    ⟨rfl, rfl, rfl, rfl, (if_pos active).symm, Nat.le_succ _⟩
  dsimp only
  split
  · split
    · exact polled_fire seen rfl
    · exact seen
  split
  · exact ⟨rfl, rfl, rfl, rfl, (if_pos active).symm, Nat.le_succ _⟩
  split
  · exact polled_fire (polled_reschedule seen) (frame_reschedule (job.polled nowMs) nowMs).2.2.1
  · exact seen

private theorem limited_pollJob {job : Job} (limited : Limited job) (active : job.active = true)
    (ticks : job.Ticks) (nowMs : UInt64) (stateEntered : Bool) (currentState : UInt8)
    (accepted : Bool) (stats : Stats) :
    Limited (pollJob nowMs stateEntered currentState accepted job stats).job := by
  have seen : Limited (job.polled nowMs) := ⟨limited.unlimited, limited.limited⟩
  rw [pollJob_timed active ticks]
  split
  · exact ⟨seen.unlimited, seen.limited⟩
  split
  · have frame := frame_reschedule (job.polled nowMs) nowMs
    obtain ⟨-, -, firings, repeats, cancelled, remaining, still⟩ := frame
    refine limited_fire ⟨?_, ?_⟩ (still.trans active)
    · rw [repeats, remaining, still, cancelled]
      exact seen.unlimited
    · rw [repeats, remaining, still, firings]
      exact seen.limited
  · exact seen

private theorem pollJob_idle {job : Job} (idle : job.active = false) (nowMs : UInt64)
    (stateEntered : Bool) (currentState : UInt8) (accepted : Bool) (stats : Stats) :
    (pollJob nowMs stateEntered currentState accepted job stats).job = job := by
  simp [pollJob, idle]

private theorem ticking_pollJob {job : Job} (ticking : Ticking clock job) {nowMs : UInt64}
    (onward : clock ≤ nowMs.toNat) (stateEntered : Bool) (currentState : UInt8)
    (accepted : Bool) (stats : Stats) :
    Ticking nowMs.toNat (pollJob nowMs stateEntered currentState accepted job stats).job := by
  obtain active | idle := Bool.eq_false_or_eq_true job.active
  case inr =>
    rw [pollJob_idle idle]
    exact ticking_later ticking onward
  have polled := polled_pollJob nowMs stateEntered currentState accepted job stats
  have looks : (pollJob nowMs stateEntered currentState accepted job stats).job.looks =
      job.looks ++ [nowMs.toNat] := by
    rw [Job.looks, polled.polls, if_pos active, List.map_append]
    rfl
  have passed : ∀ look ∈ job.looks, look ≤ nowMs.toNat :=
    fun look member => Nat.le_trans (ticking.passed look member) onward
  have ticked (ticks : (pollJob nowMs stateEntered currentState accepted job stats).job.Ticks) :
      job.Ticks := by
    rw [Job.Ticks, polled.kind, polled.interval] at ticks
    exact ticks
  refine ⟨fun ticks fits => ?_, fun ticks => ?_, ?_, ?_⟩
  · rw [Job.Fits, looks, polled.interval] at fits
    have before : job.Fits := fun look member => fits look (List.mem_append_left _ member)
    have now := fits nowMs.toNat (List.mem_append_right _ (List.mem_singleton_self _))
    exact timed_pollJob (ticking.timed (ticked ticks) before) active (ticked ticks) now passed
      ticking.sorted ..
  · exact limited_pollJob (ticking.limited (ticked ticks)) active (ticked ticks) ..
  · rw [looks]
    refine List.pairwise_append.mpr ⟨ticking.sorted, List.pairwise_singleton .., ?_⟩
    intro look member last tail
    rw [List.mem_singleton.mp tail]
    exact passed look member
  · rw [looks]
    intro look member
    obtain earlier | same := List.mem_append.mp member
    · exact passed look earlier
    · exact Nat.le_of_eq (List.mem_singleton.mp same)

/-! ### Every run -/

def pollTimes (events : List Event) : List UInt64 :=
  events.filterMap fun event =>
    match event with
    | .poll nowMs _ _ => some nowMs
    | _ => none

private theorem ticking_fill {id : UInt8} {text : List UInt8} {serial : Nat}
    (fills : Fills event repeats fill) (clock : Nat) : Ticking clock (fill {
      active := true, id := id, command := text
      history := { serial := serial, repeats := repeats } }) := by
  cases fills with
  | interval | once => exact ticking_new rfl rfl rfl rfl rfl (fun _ => rfl) clock
  | onState => exact ticking_new rfl rfl rfl rfl rfl (fun ticks => absurd rfl ticks.1) clock

/-- The latest poll, once an event is over. -/
def Event.clock (clock : Nat) : Event → Nat
  | .poll nowMs _ _ => nowMs.toNat
  | _ => clock

private theorem ticking_step {clock : Nat} {scheduler next : Scheduler} {event : Event}
    (ticking : ∀ job ∈ scheduler.jobs, Ticking clock job)
    (stepped : step scheduler event = some next)
    (onward : ∀ nowMs ∈ pollTimes [event], clock ≤ nowMs.toNat) :
    ∀ job ∈ next.jobs, Ticking (event.clock clock) job := by
  have now : ∀ {event : Event}, event.isCall = true → event.clock clock = clock :=
    fun {event} call => by
      cases event with
      | poll => cases call
      | _ => rfl
  cases moved_of_step stepped with
  | configured | unknown => exact ticking
  | refused call =>
    rw [now call]
    exact ticking
  | made fills command checked found =>
    rw [now (isCall_of_fills fills)]
    intro job member
    obtain inside | rfl := List.mem_or_eq_of_mem_set member
    · exact ticking job inside
    · exact ticking_fill fills clock
  | cancelled id found =>
    intro job member
    obtain ⟨before, inside, rfl | rfl⟩ := modify_cases member
    · exact ticking_cancel (ticking before inside)
    · exact ticking job inside
  | cancelledAll =>
    intro job member
    obtain ⟨before, inside, rfl⟩ := List.mem_map.mp member
    split
    · exact ticking_cancel (ticking before inside)
    · exact ticking before inside
  | unpolled nowMs currentState submits =>
    exact fun job member =>
      ticking_later (ticking job member) (onward nowMs (List.mem_singleton_self nowMs))
  | polled nowMs currentState submits =>
    intro after member
    obtain ⟨job, inside, _, _, rfl⟩ := mem_pollJobs member
    exact ticking_pollJob (ticking job inside) (onward nowMs (List.mem_singleton_self nowMs)) ..

private theorem ticking_run {events : List Event} {clock : Nat} {scheduler last : Scheduler}
    (ticking : ∀ job ∈ scheduler.jobs, Ticking clock job)
    (onward : ∀ nowMs ∈ pollTimes events, clock ≤ nowMs.toNat)
    (sorted : (pollTimes events).Pairwise (· ≤ ·))
    (ran : run step scheduler events = some last) :
    ∃ clock, ∀ job ∈ last.jobs, Ticking clock job := by
  induction events generalizing clock scheduler with
  | nil =>
    cases ran
    exact ⟨clock, ticking⟩
  | cons event rest ih =>
    obtain ⟨next, stepped, after⟩ := run_cons.mp ran
    have times : pollTimes (event :: rest) = pollTimes [event] ++ pollTimes rest :=
      @List.filterMap_append _ _ [event] rest _
    rw [times] at onward sorted
    obtain ⟨-, rests, across⟩ := List.pairwise_append.mp sorted
    have stepping := ticking_step ticking stepped
      (fun nowMs member => onward nowMs (List.mem_append_left _ member))
    refine ih stepping (fun later member => ?_) rests after
    cases event with
    | poll nowMs currentState submits =>
      exact UInt64.le_iff_toNat_le.mp (across nowMs (List.mem_singleton_self nowMs) later member)
    | _ => exact onward later (List.mem_append_right _ member)

/-- What becomes of a job in a poll has nothing to do with what the executor answers. -/
theorem pollJob_job (nowMs : UInt64) (stateEntered : Bool) (currentState : UInt8)
    (accepted other : Bool) (job : Job) (stats otherStats : Stats) :
    (pollJob nowMs stateEntered currentState accepted job stats).job =
      (pollJob nowMs stateEntered currentState other job otherStats).job := by
  unfold pollJob
  split
  · rfl
  dsimp only
  split
  · split
    · rfl
    · rfl
  split
  · rfl
  split
  · rfl
  · rfl

private theorem pollJobs_jobs (nowMs : UInt64) (stateEntered : Bool) (currentState : UInt8)
    (submits others : List Bool) (jobs : List Job) (stats otherStats : Stats) :
    (pollJobs nowMs stateEntered currentState submits jobs stats).1 =
      (pollJobs nowMs stateEntered currentState others jobs otherStats).1 := by
  induction jobs generalizing submits others stats otherStats with
  | nil => rfl
  | cons job rest ih =>
    simp only [pollJobs]
    rw [pollJob_job nowMs stateEntered currentState _ (others.headD true) job stats otherStats]
    exact congrArg _ (ih ..)

theorem pollJobs_slot (nowMs : UInt64) (stateEntered : Bool) (currentState : UInt8)
    (submits : List Bool) {jobs : List Job} (stats : Stats) {slot : Nat} {job : Job}
    (held : jobs[slot]? = some job) :
    (pollJobs nowMs stateEntered currentState submits jobs stats).1[slot]? =
      some (pollJob nowMs stateEntered currentState true job {}).job := by
  induction jobs generalizing slot submits stats with
  | nil => cases held
  | cons first rest ih =>
    cases slot with
    | zero =>
      cases held
      exact congrArg some (pollJob_job ..)
    | succ slot => exact ih _ _ held

private theorem poll_slot {scheduler : Scheduler} (nowMs : UInt64) (currentState : UInt8)
    (submits : List Bool) {slot : Nat} {job : Job} (held : scheduler.jobs[slot]? = some job) :
    (poll scheduler nowMs currentState submits).2.jobs[slot]? = some job ∨
      ∃ stateEntered, (poll scheduler nowMs currentState submits).2.jobs[slot]? =
        some (pollJob nowMs stateEntered currentState true job {}).job := by
  unfold poll
  split
  · exact .inl held
  · exact .inr ⟨_, pollJobs_slot nowMs _ currentState submits scheduler.stats held⟩

private theorem serial_fill {job : Job} (fills : Fills event repeats fill) :
    (fill job).history.serial = job.history.serial := by
  cases fills with
  | _ => rfl

/-- A job that is over stays as it is until its slot is given to another. -/
theorem idle_slot {scheduler next : Scheduler} {event : Event}
    (stepped : step scheduler event = some next) {slot : Nat} {job : Job}
    (held : scheduler.jobs[slot]? = some job) (idle : job.active = false) :
    ∃ later, next.jobs[slot]? = some later ∧
      (later = job ∨ later.history.serial = scheduler.issued.length) := by
  cases moved_of_step stepped with
  | configured | refused | unknown | unpolled => exact ⟨job, held, .inl rfl⟩
  | @made _ _ _ free fills command checked found =>
    obtain ⟨inside, -⟩ := List.getElem?_eq_some_iff.mp held
    dsimp only
    by_cases here : free = slot
    · rw [here, List.getElem?_set_self inside]
      exact ⟨_, rfl, .inr (serial_fill fills)⟩
    · rw [List.getElem?_set_ne here]
      exact ⟨job, held, .inl rfl⟩
  | @cancelled gone id found =>
    obtain ⟨inside, hit, -⟩ := List.findIdx?_eq_some_iff_getElem.mp found
    have other : gone ≠ slot := by
      rintro rfl
      rw [List.getElem?_eq_getElem inside, Option.some.injEq] at held
      rw [held, idle] at hit
      cases hit
    refine ⟨job, ?_, .inl rfl⟩
    dsimp only
    rw [List.getElem?_modify, held]
    simp [other]
  | cancelledAll =>
    refine ⟨job, ?_, .inl rfl⟩
    dsimp only
    rw [List.getElem?_map, held]
    simp [idle]
  | polled nowMs currentState submits =>
    refine ⟨job, ?_, .inl rfl⟩
    dsimp only
    rw [pollJobs_slot nowMs _ currentState submits scheduler.stats held, pollJob_idle idle]

/-- The jobs of a plain rate. -/
def Job.Rated (job : Job) : Prop := job.kind = .interval ∧ job.intervalMs ≠ 0

/-- What an interval job's polls have come to: how often it fired, what it dropped,
and when it is due again. -/
structure KeepsRate (scheduler : Scheduler) : Prop where
  /-- No more occurrences are used up than there are whole intervals since the first poll. -/
  used : ∀ job ∈ scheduler.jobs, job.Rated → job.Fits →
    ∀ first last, job.looks.head? = some first → job.looks.getLast? = some last →
      ∀ now, last ≤ now →
        job.history.firings + job.history.skipped ≤ (now - first) / job.intervalMs.toNat
  later : ∀ job ∈ scheduler.jobs, job.Rated → job.Fits →
    ∀ last, job.looks.getLast? = some last → last < job.nextMs.toNat
  oncePerPoll : ∀ nowMs currentState submits (slot : Nat) (before after : Job),
    scheduler.jobs[slot]? = some before →
    (poll scheduler nowMs currentState submits).2.jobs[slot]? = some after →
    after.history.firings ≤ before.history.firings + 1
  limited : ∀ job ∈ scheduler.jobs, job.Rated → job.history.repeats ≠ 0 →
    job.history.firings ≤ job.history.repeats.toNat ∧
      (job.history.firings = job.history.repeats.toNat → job.active = false)
  /-- A job that is over stays as it is until its slot is given to a new one. -/
  ended : ∀ (slot : Nat) (job : Job), scheduler.jobs[slot]? = some job → job.active = false →
    ∀ event next, step scheduler event = some next → ∃ later : Job,
      next.jobs[slot]? = some later ∧
        (later = job ∨ later.history.serial = scheduler.issued.length)
  /-- An unlimited job goes on until it is cancelled, and looked at in every interval
  it fires for every one. -/
  steady : ∀ job ∈ scheduler.jobs, job.Rated →
    job.history.repeats = 0 → job.history.cancelled = false → job.active = true ∧
      (job.Fits → ∀ first last, job.looks.head? = some first → job.looks.getLast? = some last →
        Cadence.Attended job.intervalMs.toNat first job.looks last →
        job.history.skipped = 0 ∧
          job.history.firings = (last - first) / job.intervalMs.toNat)
  /-- An occurrence that the executor refuses is used up like any other. -/
  refused : ∀ nowMs currentState submits others,
    (poll scheduler nowMs currentState submits).2.jobs =
      (poll scheduler nowMs currentState others).2.jobs

private theorem ticks_of_rated {job : Job} (rated : job.Rated) : job.Ticks :=
  ⟨fun other => Kind.noConfusion (rated.1.symm.trans other), rated.2⟩

private theorem keepsRate_of_ticking {clock : Nat} {scheduler : Scheduler}
    (ticking : ∀ job ∈ scheduler.jobs, Ticking clock job) : KeepsRate scheduler where
  used := fun job member rated fits first last head tail now onward =>
    have timed := (ticking job member).timed (ticks_of_rated rated) fits
    Cadence.used_le (interval_pos (ticks_of_rated rated)) (timed.within first last head tail)
      now onward
  later := by
    intro job member rated fits last tail
    obtain ⟨before, split⟩ := List.getLast?_eq_some_iff.mp tail
    have held : job.looks ≠ [] := by
      rw [split]
      exact List.append_ne_nil_of_right_ne_nil _ (List.cons_ne_nil last [])
    have timed := (ticking job member).timed (ticks_of_rated rated) fits
    exact (timed.within _ last (List.head?_eq_some_head held) tail).later
  oncePerPoll := by
    intro nowMs currentState submits slot before after held polled
    obtain same | ⟨stateEntered, turned⟩ := poll_slot nowMs currentState submits held
    · cases same.symm.trans polled
      exact Nat.le_succ _
    · cases turned.symm.trans polled
      exact (polled_pollJob ..).firings
  limited := by
    intro job member rated some
    obtain ⟨sum, left⟩ := ((ticking job member).limited (ticks_of_rated rated)).limited some
    refine ⟨by omega, fun all => ?_⟩
    have zero : job.remaining.toNat = 0 := by omega
    have none : job.remaining = 0 := UInt32.toNat_inj.mp zero
    exact Bool.eq_false_iff.mpr fun still => left still none
  ended := fun _ _ held idle _ _ stepped => idle_slot stepped held idle
  steady := by
    intro job member rated unlimited kept
    have ticks := ticks_of_rated rated
    obtain active | cancelled := (((ticking job member).limited ticks).unlimited unlimited).2
    · refine ⟨active, fun fits first last head tail attended => ?_⟩
      have timed := (ticking job member).timed ticks fits
      have punctual := timed.punctual first last head tail attended
      exact ⟨punctual.1, Cadence.fired_of_punctual (interval_pos ticks)
        (timed.within first last head tail) punctual⟩
    · rw [kept] at cancelled
      cases cancelled
  refused := by
    intro nowMs currentState submits others
    unfold poll
    split
    · rfl
    · exact pollJobs_jobs ..

/-- In every run of polls that go forward, whatever is scheduled and cancelled between
them, interval jobs keep their rate. -/
theorem interval_jobs_keep_rate (events : List Event) (scheduler : Scheduler)
    (ran : run step {} events = some scheduler)
    (onward : (pollTimes events).Pairwise (· ≤ ·)) : KeepsRate scheduler := by
  have untouched : ∀ job ∈ ({} : Scheduler).jobs, Ticking 0 job := by
    intro job member
    obtain rfl : job = {} := List.eq_of_mem_replicate member
    exact ⟨fun ticks => absurd rfl ticks.2, fun ticks => absurd rfl ticks.2, .nil, by
      intro look none
      cases none⟩
  obtain ⟨clock, ticking⟩ := ticking_run untouched (fun _ _ => Nat.zero_le _) onward ran
  exact keepsRate_of_ticking ticking

/-- Three firings at a hundred milliseconds, one of them refused. -/
def paced : List Event :=
  [.configure true, .scheduleInterval 100 3 (some [115]), .poll 10 0 [], .poll 110 0 [],
    .poll 500 0 [false], .poll 520 0 [], .poll 600 0 []]

theorem interval_jobs_keep_rate_paced : KeepsRate ((run step {} paced).getD {}) :=
  interval_jobs_keep_rate paced _ rfl (by decide)

/-- Two polls at the clock's last millisecond. -/
def lastMillisecond : List Event :=
  [.configure true, .scheduleInterval 1000 0 (some [115]), .poll 0xFFFFFFFFFFFFFFFF 0 [],
    .poll 0xFFFFFFFFFFFFFFFF 0 []]

/-- The first due time comes round to before the first poll, and is over at once. -/
theorem fires_before_due : ¬ ∀ (events : List Event) (scheduler : Scheduler),
    run step {} events = some scheduler → (pollTimes events).Pairwise (· ≤ ·) →
      ∀ job ∈ scheduler.jobs, job.Rated → ∀ first last, job.looks.head? = some first →
        job.looks.getLast? = some last →
          job.history.firings + job.history.skipped ≤ (last - first) / job.intervalMs.toNat := by
  intro always
  have fired := always lastMillisecond ((run step {} lastMillisecond).getD {}) rfl (by decide)
    (((run step {} lastMillisecond).getD {}).jobs.headD {}) (by decide) ⟨by decide, by decide⟩
    (2 ^ 64 - 1) (2 ^ 64 - 1) (by decide) (by decide)
  exact absurd fired (by decide)

end BallyOS.Jobs
