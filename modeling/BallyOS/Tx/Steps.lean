import BallyOS.Tx.Scheduler

/-! What a step of the scheduler is made of. Every operation is a few elementary
changes, each made under a guard; a property that each of them keeps is kept by
every step. -/
namespace BallyOS.Tx
open Btp Library Scheduler

/-- A pop takes the frame at the read cursor and moves that cursor. -/
theorem pop_spec {scheduler next : Scheduler}
    (popped : scheduler.pop priority = some (frame, next)) :
    0 < (scheduler.queues priority).count ∧
      frame = (scheduler.queues priority).slots (scheduler.queues priority).read ∧
      next = scheduler.advanceQueue priority := by
  unfold Scheduler.pop at popped
  dsimp only at popped
  split at popped
  · cases popped
  · cases popped
    exact ⟨by omega, rfl, rfl⟩

/-- What is popped is of the first class with a frame: those served before it
are empty. -/
theorem popFirst_spec {scheduler next : Scheduler} {classes : List Priority}
    (sorted : classes.Pairwise fun first second => first.index < second.index)
    (found : scheduler.popFirst classes = some (priority, frame, next)) :
    priority ∈ classes ∧ priority ≠ .telemetry ∧ scheduler.pop priority = some (frame, next) ∧
      ∀ higher ∈ classes, higher ≠ .telemetry → higher.index < priority.index →
        (scheduler.queues higher).count = 0 := by
  induction classes with
  | nil => cases found
  | cons first rest ih =>
    obtain ⟨least, tail⟩ := List.pairwise_cons.mp sorted
    unfold Scheduler.popFirst at found
    split at found
    · rename_i lane
      obtain ⟨member, confirm, popped, empty⟩ := ih tail found
      refine ⟨List.mem_cons_of_mem _ member, confirm, popped, fun higher listed other above => ?_⟩
      rcases List.mem_cons.mp listed with rfl | later
      · exact absurd lane other
      · exact empty higher later other above
    rename_i confirm
    split at found
    · rename_i popped
      cases found
      refine ⟨List.mem_cons_self, confirm, popped, fun higher listed _ above => ?_⟩
      rcases List.mem_cons.mp listed with rfl | later
      · exact absurd above (Nat.lt_irrefl _)
      · exact absurd (least higher later) (Nat.lt_asymm above)
    · rename_i none
      obtain ⟨member, other, popped, empty⟩ := ih tail found
      refine ⟨List.mem_cons_of_mem _ member, other, popped, fun higher listed distinct above => ?_⟩
      rcases List.mem_cons.mp listed with rfl | later
      · by_contra waiting
        simp [Scheduler.pop, waiting] at none
      · exact empty higher later distinct above

theorem all_sorted : Priority.all.Pairwise fun first second => first.index < second.index := by
  decide

theorem mem_all (priority : Priority) : priority ∈ Priority.all := by
  cases priority <;> decide

/-- How a wait may end, seen from the recorded event. -/
inductive Ended : DeliveryEvent → Outcome → Prop
  | success : Ended .success .delivered
  | failure : Ended .failure .failed
  | silence : Ended .none .timedOut

/-- A property that every elementary change keeps, given what the radio may do
during a call and when it may report. -/
structure Kept (codec : FrameCodec) (sane : Radio → Prop) (timely : Scheduler → Nat → Prop)
    (holds : Scheduler → Prop) : Prop where
  configure : ∀ scheduler timeout, holds scheduler → holds (scheduler.configure timeout)
  configureTelemetry : ∀ scheduler, holds scheduler → holds scheduler.configureTelemetry
  refuse : ∀ scheduler, holds scheduler → holds scheduler.refuse
  refuseClass : ∀ scheduler priority, holds scheduler → holds (scheduler.refuseClass priority)
  store : ∀ scheduler priority data, holds scheduler →
    (scheduler.queues priority).count < kQueueCapacity priority →
    data.length ≤ codec.maxFrameSize → holds (scheduler.store priority data)
  resolve : ∀ scheduler outcome, holds scheduler → scheduler.awaitingDelivery = true →
    Ended scheduler.deliveryEvent outcome →
    holds ({ scheduler with deliveryEvent := .none }.resolve outcome)
  handOver : ∀ scheduler priority frame next now radio, holds scheduler →
    scheduler.awaitingDelivery = false → scheduler.pop priority = some (frame, next) →
    sane radio → holds ((next.occupy now priority frame).handOver radio).2
  telemetry : ∀ scheduler frame next taken, holds scheduler →
    scheduler.pop .telemetry = some (frame, next) → holds (next.countTelemetry frame taken)
  report : ∀ scheduler number delivered, holds scheduler → timely scheduler number →
    holds (scheduler.report number delivered)

/-- The condition on one step of a run. -/
def Allowed (sane : Radio → Prop) (timely : Scheduler → Nat → Prop) (scheduler : Scheduler) :
    Event → Prop
  | .pump _ radio => sane radio
  | .onDelivery number _ => timely scheduler number
  | _ => True

section
variable {codec : FrameCodec} {sane : Radio → Prop} {timely : Scheduler → Nat → Prop}
  {holds : Scheduler → Prop}

private theorem report_awaitingDelivery (scheduler : Scheduler) (number : Nat) (delivered : Bool) :
    (scheduler.report number delivered).awaitingDelivery = scheduler.awaitingDelivery := by
  unfold Scheduler.report Scheduler.onDelivery
  split <;> rfl

/-- A hand-over is a callback at most, and a refusal at most. -/
theorem holds_handOver (held : holds scheduler) (awaited : scheduler.awaitingDelivery = true)
    (report : ∀ number delivered, holds (scheduler.report number delivered))
    (refuse : ∀ called, holds called → called.awaitingDelivery = true →
      holds (called.resolve .refused)) : holds (scheduler.handOver radio).2 := by
  unfold Scheduler.handOver
  cases radio.callback with
  | none =>
    dsimp only
    split
    · exact held
    · exact refuse scheduler held awaited
  | some delivered =>
    dsimp only
    split
    · exact report _ delivered
    · apply refuse _ (report _ delivered)
      rw [report_awaitingDelivery, awaited]

private theorem kept_enqueue (kept : Kept codec sane timely holds) (held : holds scheduler) :
    holds (scheduler.enqueue codec data).2 := by
  unfold Scheduler.enqueue
  split
  · exact kept.refuse scheduler held
  rename_i sized
  split
  · exact kept.refuse scheduler held
  dsimp only
  split
  · exact kept.refuseClass scheduler _ held
  · exact kept.store scheduler _ data held (by omega) (by omega)

/-- Either the wait goes on and nothing changes, or the slot is free. -/
theorem kept_awaitDelivery (kept : Kept codec sane timely holds) (held : holds scheduler)
    (answered : scheduler.awaitDelivery now = (ready, next)) :
    holds next ∧ (ready = true → next.awaitingDelivery = false) := by
  unfold Scheduler.awaitDelivery at answered
  split at answered
  · rename_i awaiting
    have settle := fun outcome => kept.resolve scheduler outcome held awaiting
    dsimp only at answered
    split at answered
    · rename_i event
      cases answered
      exact ⟨settle _ (event ▸ .success), fun _ => rfl⟩
    · rename_i event
      cases answered
      exact ⟨settle _ (event ▸ .failure), fun _ => rfl⟩
    · rename_i event
      split at answered
      · cases answered
        exact ⟨settle _ (event ▸ .silence), fun _ => rfl⟩
      · cases answered
        rw [← event]
        exact ⟨held, fun never => absurd never (by simp)⟩
  · rename_i free
    cases answered
    exact ⟨held, fun _ => by simpa using free⟩

private theorem kept_pump (kept : Kept codec sane timely holds) (held : holds scheduler)
    (allowed : sane radio) : holds (scheduler.pump now radio).2 := by
  unfold Scheduler.pump
  split
  · rename_i waiting answered
    exact (kept_awaitDelivery kept held answered).1
  · rename_i ready answered
    obtain ⟨still, free⟩ := kept_awaitDelivery kept held answered
    split
    · split
      · rename_i priority frame popped found
        exact kept.handOver ready priority frame popped now radio still (free rfl)
          (popFirst_spec all_sorted found).2.2.1 allowed
      · exact still
    · exact still

private theorem kept_telemetryPass (kept : Kept codec sane timely holds) (held : holds scheduler) :
    holds (telemetryPass taken frames scheduler).2 := by
  induction frames generalizing scheduler taken with
  | zero => exact held
  | succ frames ih =>
    unfold telemetryPass
    split
    · exact held
    · rename_i frame popped found
      split
      · exact ih (kept.telemetry scheduler frame popped true held found)
      · exact kept.telemetry scheduler frame popped false held found

/-- A pass needs no more turns than its queue has frames. -/
theorem telemetryPass_turns {scheduler : Scheduler}
    (enough : (scheduler.queues .telemetry).count ≤ frames) :
    telemetryPass taken (frames + 1) scheduler = telemetryPass taken frames scheduler := by
  induction frames generalizing scheduler taken with
  | zero =>
    have empty : (scheduler.queues .telemetry).count = 0 := by omega
    simp [telemetryPass, Scheduler.pop, empty]
  | succ frames ih =>
    unfold telemetryPass
    cases found : scheduler.pop .telemetry with
    | none => rfl
    | some taken =>
      obtain ⟨frame, popped⟩ := taken
      obtain ⟨_, _, rfl⟩ := pop_spec found
      dsimp only
      rw [ih]
      simp only [Scheduler.countTelemetry, Scheduler.advanceQueue, Function.update_self,
        SlotRing.count_advance]
      omega

private theorem kept_step (kept : Kept codec sane timely holds) (held : holds scheduler)
    (allowed : Allowed sane timely scheduler event)
    (stepped : step codec scheduler event = some next) : holds next := by
  cases event with
  | configure timeout =>
    cases stepped
    exact kept.configure scheduler timeout held
  | configureTelemetry =>
    cases stepped
    exact kept.configureTelemetry scheduler held
  | enqueue data =>
    cases stepped
    exact kept_enqueue kept held
  | pump now radio =>
    cases stepped
    exact kept_pump kept held allowed
  | pumpTelemetry taken =>
    cases stepped
    unfold Scheduler.pumpTelemetry
    split
    · exact kept_telemetryPass kept held
    · exact held
  | onDelivery number delivered =>
    cases stepped
    exact kept.report scheduler number delivered held allowed

theorem kept_run (kept : Kept codec sane timely holds) (first : holds {})
    (meets : Along (step codec) (Allowed sane timely) {} events)
    (ran : run (step codec) {} events = some scheduler) : holds scheduler :=
  run_invariant_along (fun held allowed stepped => kept_step kept held allowed stepped)
    first meets ran

end
end BallyOS.Tx
