import BallyOS.Tx.Account

/-! Which frame a callback counts for. The callback does not name its frame, so
the scheduler counts it for the one it awaits; with one frame outstanding that
is the right one as long as the frame is still awaited. -/
namespace BallyOS.Tx
open Btp Library Scheduler

def outcomeOf (delivered : Bool) : Outcome := if delivered then .delivered else .failed

def eventOf (delivered : Bool) : DeliveryEvent := if delivered then .success else .failure

/-- The radio raises a callback during a call only for a frame it takes. -/
def Sane (radio : Radio) : Prop := radio.callback.isSome → radio.taken = true

/-- A callback, the only one of a frame the radio took, before the next frame is
handed over. -/
def BeforeNext (scheduler : Scheduler) (number : Nat) : Prop :=
  number = scheduler.history.handedOver ∧ (number, .refused) ∉ scheduler.history.outcomes ∧
    ∀ delivered, (number, delivered) ∉ scheduler.history.reports

/-- Such a callback, while its frame is still awaited. -/
def WhileAwaited (scheduler : Scheduler) (number : Nat) : Prop :=
  BeforeNext scheduler number ∧ scheduler.awaitingDelivery = true

/-- Every callback is counted for its own frame, or noted to be at the next
pump, and no frame is counted by a callback that was not its own. -/
structure Attributed (scheduler : Scheduler) : Prop where
  counted : ∀ number delivered, (number, delivered) ∈ scheduler.history.reports →
    (number, outcomeOf delivered) ∈ scheduler.history.outcomes ∨
      number = scheduler.history.handedOver ∧ scheduler.awaitingDelivery = true ∧
        scheduler.deliveryEvent = eventOf delivered
  genuine : ∀ number delivered, (number, outcomeOf delivered) ∈ scheduler.history.outcomes →
    (number, delivered) ∈ scheduler.history.reports
  noted : ∀ delivered, scheduler.awaitingDelivery = true →
    scheduler.deliveryEvent = eventOf delivered →
      (scheduler.history.handedOver, delivered) ∈ scheduler.history.reports

private theorem eventOf_ne_none (delivered : Bool) : eventOf delivered ≠ .none := by
  cases delivered <;> decide

private theorem eventOf_inj (same : eventOf delivered = eventOf other) : delivered = other := by
  cases delivered <;> cases other <;> first | rfl | cases same

private theorem ended_eventOf (ended : Ended (eventOf delivered) outcome) :
    outcome = outcomeOf delivered := by
  cases delivered <;> cases ended <;> rfl

private theorem eventOf_of_ended (ended : Ended event (outcomeOf delivered)) :
    event = eventOf delivered := by
  cases delivered <;> cases ended <;> rfl

/-- What ends a wait is the callback of the frame that was awaited. -/
theorem attributed_resolve (attributed : Attributed scheduler)
    (awaited : scheduler.awaitingDelivery = true)
    (ended : Ended scheduler.deliveryEvent outcome) :
    Attributed ({ scheduler with deliveryEvent := .none }.resolve outcome) where
  counted number delivered reported := by
    simp only [Scheduler.resolve, List.mem_append, List.mem_singleton]
    rcases attributed.counted number delivered reported with before | ⟨last, _, event⟩
    · exact Or.inl (Or.inl before)
    · rw [event] at ended
      exact Or.inl (Or.inr (by rw [last, ended_eventOf ended]))
  genuine number delivered member := by
    simp only [Scheduler.resolve, List.mem_append, List.mem_singleton] at member
    rcases member with before | last
    · exact attributed.genuine number delivered before
    · simp only [Prod.mk.injEq] at last
      obtain ⟨rfl, rfl⟩ := last
      exact attributed.noted delivered awaited (eventOf_of_ended ended)
  noted delivered waiting _ := absurd waiting (by simp [Scheduler.resolve])

/-- A frame that was just handed over has no callback yet. -/
theorem attributed_occupy {scheduler next : Scheduler} (attributed : Attributed scheduler)
    (free : scheduler.awaitingDelivery = false)
    (popped : scheduler.pop priority = some (frame, next)) :
    Attributed (next.occupy now priority frame) := by
  obtain ⟨_, _, rfl⟩ := pop_spec popped
  refine ⟨fun number delivered reported => ?_, attributed.genuine, fun delivered _ event => ?_⟩
  · rcases attributed.counted number delivered reported with before | ⟨_, awaited, _⟩
    · exact Or.inl before
    · exact absurd awaited (by simp [free])
  · exact absurd event.symm (eventOf_ne_none delivered)

/-- A callback is noted for the frame that is awaited. -/
theorem attributed_report (attributed : Attributed scheduler)
    (awaited : scheduler.awaitingDelivery = true) (quiet : scheduler.deliveryEvent = .none) :
    Attributed (scheduler.report scheduler.history.handedOver delivered) := by
  unfold Scheduler.report Scheduler.onDelivery
  rw [if_pos awaited]
  constructor
  · intro number other reported
    simp only [List.mem_append, List.mem_singleton, Prod.mk.injEq] at reported
    rcases reported with before | ⟨rfl, rfl⟩
    · rcases attributed.counted number other before with done | ⟨_, _, event⟩
      · exact Or.inl done
      · exact absurd (event.symm.trans quiet) (eventOf_ne_none other)
    · exact Or.inr ⟨rfl, awaited, rfl⟩
  · intro number other member
    exact List.mem_append_left _ (attributed.genuine number other member)
  · intro other _ event
    exact List.mem_append_right _ (by simp [eventOf_inj event])

/-- The radio refuses a frame for which it raised no callback. -/
theorem attributed_refused (attributed : Attributed scheduler)
    (quiet : scheduler.deliveryEvent = .none) : Attributed (scheduler.resolve .refused) where
  counted number delivered reported := by
    rcases attributed.counted number delivered reported with before | ⟨_, _, event⟩
    · exact Or.inl (List.mem_append_left _ before)
    · exact absurd (event.symm.trans quiet) (eventOf_ne_none delivered)
  genuine number delivered member := by
    simp only [Scheduler.resolve, List.mem_append, List.mem_singleton, Prod.mk.injEq] at member
    rcases member with before | ⟨_, refused⟩
    · exact attributed.genuine number delivered before
    · cases delivered <;> cases refused
  noted delivered waiting _ := absurd waiting (by simp [Scheduler.resolve])

private theorem attributed_handOver (attributed : Attributed scheduler)
    (awaited : scheduler.awaitingDelivery = true) (quiet : scheduler.deliveryEvent = .none)
    (sane : Sane radio) : Attributed (scheduler.handOver radio).2 := by
  unfold Scheduler.handOver
  cases raised : radio.callback with
  | none =>
    dsimp only
    split
    · exact attributed
    · exact attributed_refused attributed quiet
  | some delivered =>
    dsimp only
    rw [if_pos (sane (by simp [raised]))]
    exact attributed_report attributed awaited quiet

/-- A frame awaited without a callback so far has no event noted. -/
theorem event_none (attributed : Attributed scheduler) (timely : WhileAwaited scheduler number) :
    scheduler.deliveryEvent = .none := by
  obtain ⟨⟨rfl, _, unreported⟩, awaited⟩ := timely
  cases event : scheduler.deliveryEvent with
  | none => rfl
  | success => exact absurd (attributed.noted true awaited event) (unreported true)
  | failure => exact absurd (attributed.noted false awaited event) (unreported false)

private theorem attributed_kept (codec : FrameCodec) : Kept codec Sane WhileAwaited Attributed where
  configure _ _ attributed := ⟨attributed.counted, attributed.genuine, attributed.noted⟩
  configureTelemetry _ attributed := ⟨attributed.counted, attributed.genuine, attributed.noted⟩
  refuse _ attributed := ⟨attributed.counted, attributed.genuine, attributed.noted⟩
  refuseClass _ _ attributed := ⟨attributed.counted, attributed.genuine, attributed.noted⟩
  store _ _ _ attributed _ _ := ⟨attributed.counted, attributed.genuine, attributed.noted⟩
  resolve _ _ attributed awaited ended := attributed_resolve attributed awaited ended
  handOver _ _ _ _ _ _ attributed free popped sane :=
    attributed_handOver (attributed_occupy attributed free popped) rfl rfl sane
  telemetry scheduler frame next taken attributed popped := by
    obtain ⟨_, _, rfl⟩ := pop_spec popped
    exact ⟨attributed.counted, attributed.genuine, attributed.noted⟩
  report scheduler number delivered attributed timely := by
    have quiet := event_none attributed timely
    obtain ⟨⟨rfl, _, _⟩, awaited⟩ := timely
    exact attributed_report attributed awaited quiet

/-- Waiting for a callback touches no queue and gives the radio nothing. -/
theorem awaitDelivery_keeps {scheduler next : Scheduler}
    (answered : scheduler.awaitDelivery now = (ready, next)) :
    next.queues = scheduler.queues ∧ next.history.handed = scheduler.history.handed := by
  unfold Scheduler.awaitDelivery at answered
  split at answered
  · dsimp only at answered
    split at answered
    · cases answered
      exact ⟨rfl, rfl⟩
    · cases answered
      exact ⟨rfl, rfl⟩
    · split at answered
      · cases answered
        exact ⟨rfl, rfl⟩
      · cases answered
        exact ⟨rfl, rfl⟩
  · cases answered
    exact ⟨rfl, rfl⟩

private theorem report_handed (scheduler : Scheduler) (number : Nat) (delivered : Bool) :
    (scheduler.report number delivered).history.handed = scheduler.history.handed := by
  unfold Scheduler.report Scheduler.onDelivery
  split <;> rfl

private theorem handOver_handed (scheduler : Scheduler) (radio : Radio) :
    (scheduler.handOver radio).2.history.handed = scheduler.history.handed := by
  unfold Scheduler.handOver
  cases radio.callback with
  | none =>
    dsimp only
    split <;> rfl
  | some delivered =>
    dsimp only
    split
    · exact report_handed scheduler _ delivered
    · exact report_handed scheduler _ delivered

/-- What `pump` gives the radio is of the first class of its lane with a frame. -/
theorem pump_serves_highest {scheduler : Scheduler} {priority : Priority}
    (given : (scheduler.pump now radio).2.history.handed =
      scheduler.history.handed ++ [(priority, data)]) :
    priority ≠ .telemetry ∧ ∀ higher : Priority, higher ≠ .telemetry →
      higher.index < priority.index → (scheduler.queues higher).count = 0 := by
  unfold Scheduler.pump at given
  split at given
  · rename_i waiting answered
    rw [(awaitDelivery_keeps answered).2] at given
    simp at given
  · rename_i ready answered
    obtain ⟨queues, handed⟩ := awaitDelivery_keeps answered
    split at given
    · split at given
      · rename_i first frame popped found
        obtain ⟨_, confirm, taken, empty⟩ := popFirst_spec all_sorted found
        obtain ⟨_, _, rfl⟩ := pop_spec taken
        rw [handOver_handed] at given
        simp only [Scheduler.occupy, advanceQueue_history, handed, List.append_cancel_left_eq,
          List.cons.injEq, Prod.mk.injEq] at given
        obtain ⟨⟨rfl, _⟩, _⟩ := given
        rw [← queues]
        exact ⟨confirm, fun higher other above => empty higher (mem_all higher) other above⟩
      · rw [handed] at given
        simp at given
    · rw [handed] at given
      simp at given

/-- Every accepted frame is counted once, waits in its queue or is the one
awaited; each class leaves in order; and a callback that arrives while its frame
is awaited is counted for that frame. -/
theorem frames_are_accounted_for {scheduler : Scheduler} (codec : FrameCodec)
    (short : codec.maxFrameSize < UInt16.size) (ran : run (step codec) {} events = some scheduler) :
    Accounted scheduler ∧
    (∀ priority, (scheduler.queues priority).count ≤ kQueueCapacity priority ∧
      (scheduler.queues priority).write =
        ((scheduler.queues priority).read + (scheduler.queues priority).count) %
          kQueueCapacity priority) ∧
    (∀ priority, framesOf priority scheduler.history.handed <+:
      framesOf priority scheduler.history.accepted) ∧
    (∀ now radio, ∀ priority : Priority, ∀ data,
      (scheduler.pump now radio).2.history.handed =
        scheduler.history.handed ++ [(priority, data)] →
      priority ≠ .telemetry ∧ ∀ higher : Priority, higher ≠ .telemetry →
        higher.index < priority.index → (scheduler.queues higher).count = 0) ∧
    Sole scheduler ∧
    (Along (step codec) (Allowed Sane WhileAwaited) {} events → Attributed scheduler) := by
  have free : Along (step codec) (Allowed (fun _ => True) fun _ _ => True) {} events := by
    refine along_of_forall (fun _ event => ?_) _ _
    cases event <;> trivial
  have account : Accounted scheduler := kept_run (accounted_kept codec) ⟨rfl, rfl⟩ free ran
  have started : Ordered {} :=
    ⟨fun priority => SlotRing.wellFormed_new (kQueueCapacity_pos priority) _, fun _ => rfl⟩
  have ordered : Ordered scheduler := kept_run (ordered_kept short) started free ran
  have sole : Sole scheduler := kept_run (sole_kept codec) ⟨rfl, rfl⟩ free ran
  refine ⟨account, fun priority => ?_, fun priority => ⟨_, (ordered.fifo priority).symm⟩,
    fun _ _ _ _ given => pump_serves_highest given, sole, fun meets => ?_⟩
  · exact ⟨(ordered.formed priority).fits, (ordered.formed priority).placed⟩
  · have unreported : Attributed {} :=
      ⟨fun _ _ member => absurd member List.not_mem_nil,
        fun _ _ member => absurd member List.not_mem_nil, fun _ waiting => absurd waiting (by simp)⟩
    exact kept_run (attributed_kept codec) unreported meets ran

/-- A codec whose frames start with their type and their object. -/
def benchCodec : FrameCodec where
  minimumFrameSize := 2
  maxFrameSize := 250
  decode
    | type :: object :: _ =>
      let header := fun type : MessageType => some ⟨type, 0, object.toUInt16, 1, 2, 0, 0, 1⟩
      match type with
      | 1 => header .log
      | 2 => header .command
      | 3 => header .telemetry
      | 4 => header .terminal
      | 5 => header .control
      | _ => none
    | _ => none

/-- Frames of three classes; a result overtakes a debug line, the radio reports
on both, refuses the second telemetry frame and a last debug line. -/
def overtakingTrace : List Event :=
  [.configure 60, .configureTelemetry, .enqueue [1, 0, 7], .enqueue [2, 2, 8], .enqueue [9, 9],
    .enqueue [3, 0, 1], .enqueue [3, 0, 2], .pump 100 ⟨true, none⟩, .onDelivery 1 true,
    .pump 101 ⟨true, some false⟩, .pumpTelemetry (fun index => index = 0), .enqueue [1, 0, 9],
    .pump 103 ⟨false, none⟩]

theorem frames_of_overtaking_trace_are_accounted_for : ∃ scheduler,
    run (step benchCodec) {} overtakingTrace = some scheduler ∧
    scheduler.history.outcomes = [(1, .delivered), (2, .failed), (3, .refused)] ∧
    framesOf .debug scheduler.history.handed = [[1, 0, 7], [1, 0, 9]] ∧
    Accounted scheduler ∧ Sole scheduler ∧ Attributed scheduler := by
  have ran : run (step benchCodec) {} overtakingTrace = some _ := rfl
  have meets : Along (step benchCodec) (Allowed Sane WhileAwaited) {} overtakingTrace := by
    refine along_of_step trivial rfl (along_of_step trivial rfl (along_of_step trivial rfl ?_))
    refine along_of_step trivial rfl (along_of_step trivial rfl (along_of_step trivial rfl ?_))
    refine along_of_step trivial rfl (along_of_step (fun _ => rfl) rfl ?_)
    apply along_of_step (by unfold Allowed WhileAwaited BeforeNext; decide) rfl
    refine along_of_step (fun _ => rfl) rfl (along_of_step trivial rfl ?_)
    exact along_of_step trivial rfl (along_of_step (by simp [Allowed, Sane]) rfl trivial)
  obtain ⟨account, _, _, _, sole, attributed⟩ :=
    frames_are_accounted_for benchCodec (by decide) ran
  exact ⟨_, ran, rfl, rfl, account, sole, attributed meets⟩

/-- One result, given up after the timeout, whose callback comes later. -/
def lateCallbackTrace : List Event :=
  [.configure 60, .enqueue [2, 2, 8], .pump 0 ⟨true, none⟩, .pump 60 ⟨true, none⟩,
    .onDelivery 1 true]

/-- No other frame was handed over, yet the callback is counted for none: its
frame stays counted as timed out. -/
theorem late_callback_is_not_counted : ¬∀ events scheduler,
    run (step benchCodec) {} events = some scheduler →
    Along (step benchCodec) (Allowed Sane BeforeNext) {} events →
    ∀ number delivered, (number, delivered) ∈ scheduler.history.reports →
      (number, outcomeOf delivered) ∈ scheduler.history.outcomes ∨
        number = scheduler.history.handedOver ∧ scheduler.awaitingDelivery = true ∧
          scheduler.deliveryEvent = eventOf delivered := by
  intro every
  have meets : Along (step benchCodec) (Allowed Sane BeforeNext) {} lateCallbackTrace := by
    refine along_of_step trivial rfl (along_of_step trivial rfl ?_)
    refine along_of_step (fun _ => rfl) rfl (along_of_step (fun _ => rfl) rfl ?_)
    exact along_of_step (by unfold Allowed BeforeNext; decide) rfl trivial
  have counted := every lateCallbackTrace _ rfl meets 1 true (by decide)
  exact absurd counted (by decide)

end BallyOS.Tx
