import BallyOS.Tx.Steps

/-! What the scheduler's counters and queues say about its frames. Every frame
that was accepted is still queued, is the one awaited, or was counted once; the
frames of a class went to the radio in the order they were accepted. -/
namespace BallyOS.Tx
open Btp Library Scheduler

/-- The counters' equations, modulo 2^32. -/
structure Accounted (scheduler : Scheduler) : Prop where
  accepted : scheduler.stats.accepted =
    scheduler.stats.delivered + scheduler.stats.deliveryFailed + scheduler.stats.timeouts +
      UInt32.ofNat (refusals scheduler.history.outcomes) +
      scheduler.stats.telemetrySent + scheduler.stats.telemetryDropped +
      UInt32.ofNat scheduler.queued + (if scheduler.awaitingDelivery then 1 else 0)
  dropped : scheduler.stats.dropped =
    UInt32.ofNat scheduler.history.refusedEnqueues + scheduler.stats.deliveryFailed +
      scheduler.stats.timeouts + UInt32.ofNat (refusals scheduler.history.outcomes)

/-- The frames of one class among the entries, in order. -/
def framesOf (priority : Priority) (entries : List (Priority × List UInt8)) :
    List (List UInt8) :=
  (entries.filter fun entry => entry.1 = priority).map Prod.snd

/-- The rings are sound, and what a class accepted is what it handed to the
radio and then what it still holds. -/
structure Ordered (scheduler : Scheduler) : Prop where
  formed : ∀ priority, (scheduler.queues priority).WellFormed (kQueueCapacity priority)
  fifo : ∀ priority, framesOf priority scheduler.history.accepted =
    framesOf priority scheduler.history.handed ++
      ((scheduler.queues priority).contents (kQueueCapacity priority)).map EncodedFrame.data

/-- At most one frame of the confirm lane is waiting for its callback. -/
structure Sole (scheduler : Scheduler) : Prop where
  numbered : scheduler.history.outcomes.map Prod.fst =
    (List.range scheduler.history.outcomes.length).map (· + 1)
  outstanding : scheduler.history.handedOver =
    scheduler.history.outcomes.length + (if scheduler.awaitingDelivery then 1 else 0)

theorem kQueueCapacity_pos (priority : Priority) : 0 < kQueueCapacity priority := by
  cases priority <;> decide

@[simp] theorem framesOf_append (priority : Priority)
    (first second : List (Priority × List UInt8)) :
    framesOf priority (first ++ second) = framesOf priority first ++ framesOf priority second := by
  simp [framesOf]

@[simp] theorem framesOf_own (priority : Priority) (data : List UInt8) :
    framesOf priority [(priority, data)] = [data] := by
  simp [framesOf]

private theorem framesOf_other (different : other ≠ priority) (data : List UInt8) :
    framesOf priority [(other, data)] = [] := by
  simp [framesOf, different]

/-- Changing one queue moves the total by what that queue's count moved. -/
theorem queued_update (scheduler next : Scheduler) (queue : SlotRing EncodedFrame)
    (queues : next.queues = Function.update scheduler.queues priority queue) :
    next.queued + (scheduler.queues priority).count = scheduler.queued + queue.count := by
  cases priority <;>
    simp [Scheduler.queued, Priority.all, queues, Function.update_apply] <;> omega

private theorem queued_eq {scheduler next : Scheduler} (queues : next.queues = scheduler.queues) :
    next.queued = scheduler.queued := by
  simp [Scheduler.queued, queues]

@[simp] theorem refusals_append (first second : List (Nat × Outcome)) :
    refusals (first ++ second) = refusals first + refusals second := by
  simp [refusals]

private theorem queued_pop {scheduler next : Scheduler}
    (popped : scheduler.pop priority = some (frame, next)) :
    scheduler.queued = next.queued + 1 := by
  obtain ⟨waiting, _, rfl⟩ := pop_spec popped
  have moved := queued_update scheduler (scheduler.advanceQueue priority) _ rfl
  simp only [SlotRing.count_advance] at moved
  omega

private theorem accounted_refuse (account : Accounted scheduler) : Accounted scheduler.refuse := by
  refine ⟨account.accepted, ?_⟩
  simp only [Scheduler.refuse, account.dropped, UInt32.ofNat_add]
  grind

private theorem accounted_refuseClass (account : Accounted scheduler) :
    Accounted (scheduler.refuseClass priority) :=
  ⟨(accounted_refuse account).accepted, (accounted_refuse account).dropped⟩

private theorem accounted_store (account : Accounted scheduler) :
    Accounted (scheduler.store priority data) := by
  have more : (scheduler.store priority data).queued = scheduler.queued + 1 := by
    have := queued_update scheduler (scheduler.store priority data) _ rfl
    simp only [SlotRing.count_put] at this
    omega
  refine ⟨?_, account.dropped⟩
  rw [more]
  simp only [Scheduler.store, account.accepted, UInt32.ofNat_add]
  grind

/-- The frame that was awaited is counted by how its wait ended. -/
theorem accounted_resolve (account : Accounted scheduler)
    (awaited : scheduler.awaitingDelivery = true) : Accounted (scheduler.resolve outcome) := by
  obtain ⟨accepted, dropped⟩ := account
  have same : (scheduler.resolve outcome).queued = scheduler.queued := queued_eq rfl
  simp only [awaited, if_true] at accepted
  constructor
  · rw [same]
    cases outcome <;>
      simp only [Scheduler.resolve, Outcome.count, refusals_append, UInt32.ofNat_add] <;>
      simp [refusals, accepted] <;> grind
  · cases outcome <;>
      simp only [Scheduler.resolve, Outcome.count, refusals_append, UInt32.ofNat_add] <;>
      simp [refusals, dropped] <;> grind

/-- A frame taken out of its queue is with the radio, and awaited. -/
theorem accounted_occupy {scheduler next : Scheduler} (account : Accounted scheduler)
    (popped : scheduler.pop priority = some (frame, next))
    (free : scheduler.awaitingDelivery = false) :
    Accounted (next.occupy now priority frame) := by
  obtain ⟨accepted, dropped⟩ := account
  have less := queued_pop popped
  have same : (next.occupy now priority frame).queued = next.queued := queued_eq rfl
  obtain ⟨_, _, rfl⟩ := pop_spec popped
  refine ⟨?_, dropped⟩
  rw [same]
  simp only [free, less, UInt32.ofNat_add] at accepted
  simp only [Scheduler.occupy, advanceQueue_stats, advanceQueue_history, accepted, if_true]
  grind

private theorem accounted_countTelemetry {scheduler next : Scheduler}
    (account : Accounted scheduler)
    (popped : scheduler.pop .telemetry = some (frame, next)) :
    Accounted (next.countTelemetry frame taken) := by
  obtain ⟨accepted, dropped⟩ := account
  have less := queued_pop popped
  have same : (next.countTelemetry frame taken).queued = next.queued := queued_eq rfl
  obtain ⟨_, _, rfl⟩ := pop_spec popped
  simp only [less, UInt32.ofNat_add] at accepted
  constructor
  · rw [same]
    cases taken
    · simp only [Scheduler.countTelemetry, Bool.false_eq_true, if_false, advanceQueue_stats,
        advanceQueue_history, advanceQueue_awaitingDelivery, accepted]
      grind
    · simp only [Scheduler.countTelemetry, if_true, advanceQueue_stats, advanceQueue_history,
        advanceQueue_awaitingDelivery, accepted]
      grind
  · cases taken
    · exact dropped
    · exact dropped

private theorem accounted_report (account : Accounted scheduler) :
    Accounted (scheduler.report number delivered) := by
  unfold Scheduler.report Scheduler.onDelivery
  split
  · exact ⟨account.accepted, account.dropped⟩
  · exact ⟨account.accepted, account.dropped⟩

theorem accounted_kept (codec : FrameCodec) :
    Kept codec (fun _ => True) (fun _ _ => True) Accounted where
  configure _ _ account := ⟨account.accepted, account.dropped⟩
  configureTelemetry _ account := ⟨account.accepted, account.dropped⟩
  refuse _ account := accounted_refuse account
  refuseClass _ _ account := accounted_refuseClass account
  store _ _ _ account _ _ := accounted_store account
  resolve scheduler _ account awaited _ := by
    have cleared : Accounted { scheduler with deliveryEvent := .none } :=
      ⟨account.accepted, account.dropped⟩
    exact accounted_resolve cleared awaited
  handOver _ _ _ _ _ _ account free popped _ :=
    holds_handOver (accounted_occupy account popped free) rfl
      (fun _ _ => accounted_report (accounted_occupy account popped free))
      (fun _ still awaited => accounted_resolve still awaited)
  telemetry _ _ _ _ account popped := accounted_countTelemetry account popped
  report _ _ _ account _ := accounted_report account

private theorem ordered_store (ordered : Ordered scheduler)
    (room : (scheduler.queues priority).count < kQueueCapacity priority)
    (short : data.length < UInt16.size) : Ordered (scheduler.store priority data) := by
  have formed := ordered.formed priority
  constructor
  · intro another
    by_cases same : another = priority
    · subst same
      simp only [Scheduler.store, Function.update_self]
      exact SlotRing.wellFormed_put formed room _
    · simp only [Scheduler.store, Function.update_of_ne same]
      exact ordered.formed another
  · intro another
    by_cases same : another = priority
    · subst same
      simp only [Scheduler.store, Function.update_self, framesOf_append, framesOf_own,
        SlotRing.contents_put formed room, List.map_append, List.map_cons, List.map_nil,
        EncodedFrame.data_copyFrom short, ordered.fifo another, List.append_assoc]
    · simp only [Scheduler.store, Function.update_of_ne same, framesOf_append,
        framesOf_other (Ne.symm same), List.append_nil]
      exact ordered.fifo another

/-- A popped frame is the first of its class that the radio has not been given. -/
theorem ordered_pop {scheduler next after : Scheduler} (ordered : Ordered scheduler)
    (popped : scheduler.pop priority = some (frame, next)) (queues : after.queues = next.queues)
    (accepted : after.history.accepted = next.history.accepted)
    (handed : after.history.handed = next.history.handed ++ [(priority, frame.data)]) :
    Ordered after := by
  obtain ⟨waiting, rfl, rfl⟩ := pop_spec popped
  have formed := ordered.formed priority
  constructor
  · intro another
    rw [queues]
    by_cases same : another = priority
    · subst same
      simp only [Scheduler.advanceQueue, Function.update_self]
      exact SlotRing.wellFormed_advance formed waiting
    · simp only [Scheduler.advanceQueue, Function.update_of_ne same]
      exact ordered.formed another
  · intro another
    rw [queues, accepted, handed]
    by_cases same : another = priority
    · subst same
      simp only [Scheduler.advanceQueue, Function.update_self, framesOf_append, framesOf_own,
        ordered.fifo another, SlotRing.contents_advance formed waiting, List.map_cons,
        List.append_assoc, List.cons_append, List.nil_append]
    · simp only [Scheduler.advanceQueue, Function.update_of_ne same, framesOf_append,
        framesOf_other (Ne.symm same), List.append_nil]
      exact ordered.fifo another

private theorem ordered_report (ordered : Ordered scheduler) :
    Ordered (scheduler.report number delivered) := by
  unfold Scheduler.report Scheduler.onDelivery
  split
  · exact ⟨ordered.formed, ordered.fifo⟩
  · exact ⟨ordered.formed, ordered.fifo⟩

theorem ordered_kept {codec : FrameCodec} (short : codec.maxFrameSize < UInt16.size) :
    Kept codec (fun _ => True) (fun _ _ => True) Ordered where
  configure _ _ ordered := ⟨ordered.formed, ordered.fifo⟩
  configureTelemetry _ ordered := ⟨ordered.formed, ordered.fifo⟩
  refuse _ ordered := ⟨ordered.formed, ordered.fifo⟩
  refuseClass _ _ ordered := ⟨ordered.formed, ordered.fifo⟩
  store _ _ _ ordered room sized := ordered_store ordered room (Nat.lt_of_le_of_lt sized short)
  resolve _ _ ordered _ _ := ⟨ordered.formed, ordered.fifo⟩
  handOver scheduler priority frame next now radio ordered _ popped _ := by
    have occupied : Ordered (next.occupy now priority frame) :=
      ordered_pop ordered popped rfl rfl rfl
    exact holds_handOver occupied rfl (fun _ _ => ordered_report occupied)
      (fun _ still _ => ⟨still.formed, still.fifo⟩)
  telemetry _ _ _ _ ordered popped := ordered_pop ordered popped rfl rfl rfl
  report _ _ _ ordered _ := ordered_report ordered

private theorem sole_resolve (sole : Sole scheduler) (awaited : scheduler.awaitingDelivery = true) :
    Sole (scheduler.resolve outcome) := by
  have last : scheduler.history.handedOver = scheduler.history.outcomes.length + 1 := by
    simpa [awaited] using sole.outstanding
  constructor
  · simp only [Scheduler.resolve, List.map_append, List.map_cons, List.map_nil, sole.numbered,
      List.length_append, List.length_cons, List.length_nil, List.range_succ, last, Nat.zero_add]
  · simp [Scheduler.resolve, last]

private theorem sole_report (sole : Sole scheduler) : Sole (scheduler.report number delivered) := by
  unfold Scheduler.report Scheduler.onDelivery
  split
  · exact ⟨sole.numbered, sole.outstanding⟩
  · exact ⟨sole.numbered, sole.outstanding⟩

theorem sole_kept (codec : FrameCodec) : Kept codec (fun _ => True) (fun _ _ => True) Sole where
  configure _ _ sole := ⟨sole.numbered, sole.outstanding⟩
  configureTelemetry _ sole := ⟨sole.numbered, sole.outstanding⟩
  refuse _ sole := ⟨sole.numbered, sole.outstanding⟩
  refuseClass _ _ sole := ⟨sole.numbered, sole.outstanding⟩
  store _ _ _ sole _ _ := ⟨sole.numbered, sole.outstanding⟩
  resolve scheduler _ sole awaited _ := by
    have cleared : Sole { scheduler with deliveryEvent := .none } :=
      ⟨sole.numbered, sole.outstanding⟩
    exact sole_resolve cleared awaited
  handOver scheduler priority frame next now radio sole free popped _ := by
    obtain ⟨_, _, rfl⟩ := pop_spec popped
    have occupied : Sole ((scheduler.advanceQueue priority).occupy now priority frame) := by
      refine ⟨sole.numbered, ?_⟩
      have before := sole.outstanding
      simp only [free] at before
      simp [Scheduler.occupy, before]
    exact holds_handOver occupied rfl (fun _ _ => sole_report occupied)
      (fun _ still awaited => sole_resolve still awaited)
  telemetry scheduler frame next taken sole popped := by
    obtain ⟨_, _, rfl⟩ := pop_spec popped
    exact ⟨sole.numbered, sole.outstanding⟩
  report _ _ _ sole _ := sole_report sole

end BallyOS.Tx
