import BallyOS.Telemetry.Counting

/-! Whatever the two tasks do between each other's steps, a sample that was
queued is taken once, in order and unchanged. -/
namespace BallyOS.Telemetry
open Btp Library

/-! ### Calls that are not interrupted -/

/-- One task moves on, again and again. -/
def Alone (event : Event) (world next : World) : Prop :=
  ∃ steps, run step world (List.replicate steps event) = some next

namespace Alone

private theorem refl {event : Event} {world : World} : Alone event world world := ⟨0, rfl⟩

private theorem head {event : Event} {world middle next : World}
    (stepped : step world event = some middle)
    (rest : Alone event middle next) : Alone event world next := by
  obtain ⟨steps, ran⟩ := rest
  exact ⟨steps + 1, run_cons.mpr ⟨middle, stepped, ran⟩⟩

end Alone

/-- Run alone to its end, a publish call is the call of the queue's own model. -/
theorem publish_alone {world : World} (idle : world.producer = .idle) (topicId : UInt16)
    (payload : List UInt8) (timestampUs : UInt64) (reserved : Option UInt32) :
    ∃ opened next call, step world (.publish topicId (some payload) timestampUs) = some opened ∧
      Alone (.produce reserved) opened next ∧ next.producer = .idle ∧
      next.publisher = (enqueue world.publisher topicId payload timestampUs reserved).2 ∧
      next.returned = world.returned ++
        [(call, (enqueue world.publisher topicId payload timestampUs reserved).1)] := by
  simp only [step, if_neg (not_not_intro idle), enqueue]
  by_cases bound : (!world.publisher.configured) = true
  · simp only [if_pos bound, if_pos (show (!world.configured) = true from bound)]
    exact ⟨_, _, _, rfl, .refl, rfl, rfl, rfl⟩
  simp only [if_neg bound, if_neg (show ¬ (!world.configured) = true from bound)]
  by_cases invalid : payload = [] ∨ payload.length > kMaxPayloadSize ∨ topicId = 0
  · simp only [if_pos invalid]
    exact ⟨_, _, _, rfl, .refl, rfl, rfl, rfl⟩
  simp only [if_neg invalid]
  by_cases full : world.publisher.queuedCount ≥ kQueueCapacity
  · simp only [if_pos full]
    exact ⟨_, _, _, rfl, .head (if_pos full) .refl, rfl, rfl, rfl⟩
  simp only [if_neg full]
  cases reserved with
  | none => exact ⟨_, _, _, rfl, .head (if_neg full) (.head rfl .refl), rfl, rfl, rfl⟩
  | some sequence =>
    exact ⟨_, _, _, rfl, .head (if_neg full) (.head rfl (.head rfl (.head rfl (.head rfl .refl)))),
      rfl, rfl, rfl⟩

private theorem publishSystemMonitor_alone {world : World} (idle : world.producer = .idle)
    (text : List UInt8) (timestampUs : UInt64) (reserved : Option UInt32) :
    ∃ opened next call, step world (.publishSystemMonitor text timestampUs) = some opened ∧
      Alone (.produce reserved) opened next ∧ next.producer = .idle ∧
      next.publisher = (publishSystemMonitor world.publisher text timestampUs reserved).2 ∧
      next.returned = world.returned ++
        [(call, (publishSystemMonitor world.publisher text timestampUs reserved).1)] := by
  simp only [step, if_neg (not_not_intro idle), publishSystemMonitor]
  by_cases bound : (!world.publisher.configured) = true
  · simp only [if_pos bound, if_pos (show (!world.configured) = true from bound)]
    exact ⟨_, _, _, rfl, .refl, rfl, rfl, rfl⟩
  simp only [if_neg bound, if_neg (show ¬ (!world.configured) = true from bound)]
  by_cases waiting : world.stagePending = true
  · have held : world.publisher.monitorStage.isSome = true := by simp [World.publisher, waiting]
    simp only [if_pos held]
    exact ⟨_, _, _, rfl, .head (if_pos waiting) .refl, rfl, rfl, rfl⟩
  have free : ¬ world.publisher.monitorStage.isSome = true := by simp [World.publisher, waiting]
  simp only [if_neg free]
  cases packed : packSystemMonitor text with
  | none =>
    have rejected : step
        { world with call := .reporting text timestampUs, producer := .packing text timestampUs }
        (.produce reserved) =
        some ({ world with call := .reporting text timestampUs }.answer .invalidValue) := by
      simp only [step, World.produce, packed]
      rfl
    exact ⟨_, _, _, rfl, .head (if_neg waiting) (.head rejected .refl), rfl, rfl, rfl⟩
  | some payload =>
    have staged : step
        { world with call := .reporting text timestampUs, producer := .packing text timestampUs }
        (.produce reserved) = some { world with
          call := .reporting text timestampUs
          stage := { world.stage with payload := payload }
          producer := .reservingDocument payload timestampUs } := by
      simp only [step, World.produce, packed]
    cases reserved with
    | none =>
      refine ⟨_, _, _, rfl, .head (if_neg waiting) (.head staged (.head rfl .refl)), rfl, ?_, rfl⟩
      simp [World.publisher, waiting, World.answer]
    | some sequence =>
      exact ⟨_, _, _, rfl, .head (if_neg waiting) (.head staged (.head rfl (.head rfl (.head rfl
        (.head rfl .refl))))), rfl, rfl, rfl⟩

/-- The loop of a flush call, when nothing is published meanwhile. -/
private theorem looking_alone (more : Nat) (processed : Nat) (world : World)
    (at_ : world.consumer = .looking (processed + more) processed) :
    ∃ next, Alone .consume world next ∧ next.consumer = .idle ∧
      next.publisher = (takeQueued more world.publisher).2 ∧
      next.taken = world.taken ++ (takeQueued more world.publisher).1 ∧
      next.takenDocuments = world.takenDocuments ∧
      next.published = world.published ∧ next.documents = world.documents := by
  induction more generalizing world processed with
  | zero =>
    refine ⟨{ world with consumer := .idle }, .head ?_ .refl, rfl, rfl, ?_, rfl, rfl, rfl⟩
    · simp [step, World.consume, at_]
    · simp [takeQueued]
  | succ more ih =>
    by_cases drained : world.readIndex = world.writeIndex
    · have nothing : takeQueued (more + 1) world.publisher = ([], world.publisher) := if_pos drained
      rw [nothing]
      refine ⟨{ world with consumer := .idle }, .head ?_ .refl, rfl, rfl, ?_, rfl, rfl, rfl⟩
      · simp [step, World.consume, at_, drained]
      · simp
    · have looked : step world .consume =
          some { world with consumer := .sending (processed + (more + 1)) processed } := by
        simp [step, World.consume, at_, drained]
      have takes : takeQueued (more + 1) world.publisher = _ := if_neg drained
      obtain ⟨next, ran, idle, after, taken, rest⟩ := ih (processed + 1)
        { world with
          readIndex := world.readIndex + 1
          taken := world.taken ++ [world.queue (world.readIndex.toNat % kQueueCapacity)]
          consumer := .looking (processed + (more + 1)) (processed + 1) }
        (by simp only [Nat.add_assoc, Nat.add_comm 1])
      refine ⟨next, .head looked (.head rfl ran), idle, ?_, ?_, rest⟩
      · rw [takes]
        exact after
      · rw [takes, taken]
        exact List.append_assoc ..

/-- Run alone to its end, a flush call takes what the queue's own model says. -/
theorem flush_alone {world : World} (idle : world.consumer = .idle) (maxSamples : Nat)
    {targets : List Target} (bound : targets ≠ []) :
    ∃ opened next, step world (.flush maxSamples true) = some opened ∧
      Alone .consume opened next ∧ next.consumer = .idle ∧
      next.publisher = (flush world.publisher maxSamples targets).2 ∧
      (∃ documents samples,
        (flush world.publisher maxSamples targets).1 = documents ++ samples ∧
        next.takenDocuments = world.takenDocuments ++ documents ∧
        next.taken = world.taken ++ samples) ∧
      next.published = world.published ∧ next.documents = world.documents := by
  have opens : step world (.flush maxSamples true) =
      some { world with consumer := .checkingStage maxSamples } := if_neg (not_not_intro idle)
  by_cases first : 0 < maxSamples ∧ world.stagePending = true
  · obtain ⟨more, rfl⟩ : ∃ more, maxSamples = more + 1 := ⟨maxSamples - 1, by omega⟩
    obtain ⟨next, ran, idle, after, taken, documents, rest⟩ := looking_alone more 1
      { world with
        stagePending := false
        takenDocuments := world.takenDocuments ++ [world.stage]
        consumer := .looking (more + 1) 1 } (by simp only [Nat.add_comm])
    have held : world.publisher.monitorStage = some world.stage := if_pos first.2
    rw [flush_staged bound held]
    refine ⟨_, next, opens, .head (if_pos first) (.head rfl ran), idle, after, ?_, rest⟩
    exact ⟨[world.stage], _, rfl, documents, taken⟩
  · obtain ⟨next, ran, idle, after, taken, documents, rest⟩ := looking_alone maxSamples 0
      { world with consumer := .looking maxSamples 0 } (by simp only [Nat.zero_add])
    have free : maxSamples = 0 ∨ world.publisher.monitorStage = none := by
      by_cases none : maxSamples = 0
      · exact .inl none
      · exact .inr (if_neg fun waiting => first ⟨Nat.pos_of_ne_zero none, waiting⟩)
    rw [flush_queued bound free]
    refine ⟨_, next, opens, .head (if_neg first) ran, idle, after, ⟨[], _, rfl, ?_, taken⟩, rest⟩
    rw [documents, List.append_nil]

/-! ### The waiting report -/

/-- Whatever either task does, a report that is still waiting is the one that was. -/
theorem stage_step {world next : World} {event : Event} (exchanged : Exchanged world)
    (stepped : step world event = some next) (waiting : world.stagePending = true) :
    next.stage = world.stage := by
  have fits := exchanged.producer
  obtain ⟨reserved, stepped⟩ | stepped | opened := step_cases stepped
  · unfold World.produce at stepped
    split at stepped
    case h_8 at_ =>
      rw [at_] at fits
      exact absurd (fits.symm.trans waiting) nofun
    case h_10 at_ =>
      rw [at_] at fits
      exact absurd (fits.1.symm.trans waiting) nofun
    case h_1 => cases stepped
    case h_4 | h_5 | h_6 | h_11 | h_12 =>
      cases stepped
      rfl
    all_goals
      split at stepped
      all_goals
        cases stepped
        rfl
  · exact (consume_frame stepped).2.2.2.2.2.2
  · cases opened <;> rfl

/-! ### Every run -/

structure Settled (world : World) : Prop where
  exchanged : Exchanged world
  noted : Noted world
  answered : Answered world
  counted : Counted world

private theorem settled_step {world next : World} {event : Event} (settled : Settled world)
    (stepped : step world event = some next) : Settled next where
  exchanged := exchanged_step settled.exchanged stepped
  noted := noted_step settled.noted stepped
  answered := answered_step settled.exchanged settled.noted settled.answered stepped
  counted := counted_step settled.noted settled.counted stepped

private theorem settled_run {world : World} (ran : run step .initial events = some world) :
    Settled world := by
  refine run_invariant settled_step ⟨exchanged_initial, trivial, ?_, ?_⟩ ran
  · exact fun _ member => absurd member List.not_mem_nil
  · exact ⟨rfl, rfl, rfl⟩

/-- Every sample is accounted for: it is still pending or flush has been through
it, and it is counted unless its call has still to do so. -/
theorem count_of_settled {world : World} (settled : Settled world) :
    world.queuedTotal + UInt32.ofNat (world.producer.uncounted.length +
        world.producer.uncountedDocuments.length) =
      UInt32.ofNat (world.processed + world.queuedCount) := by
  obtain ⟨exchanged, -, -, counted⟩ := settled
  have samples := congrArg List.length (counted.samples.symm.trans exchanged.inOrder)
  have documents := congrArg List.length (counted.documents.symm.trans exchanged.documentsInOrder)
  have staged : world.staged.length = if world.stagePending then 1 else 0 := by
    unfold World.staged
    split <;> rfl
  simp only [List.length_append] at samples documents
  rw [counted.total, ← UInt32.ofNat_add]
  congr 1
  rw [World.pending, length_pending, Publisher.queuedCount] at samples
  rw [World.processed, World.queuedCount, ← staged]
  simp only [World.publisher] at samples
  omega

private theorem takeQueued_drains (more : Nat) (publisher : Publisher)
    (enough : publisher.pending.length ≤ more) : (takeQueued more publisher).2.pending = [] := by
  induction more generalizing publisher with
  | zero => exact List.length_eq_zero_iff.mp (Nat.le_zero.mp enough)
  | succ more ih =>
    by_cases drained : publisher.readIndex = publisher.writeIndex
    · have none : publisher.pending = [] := by
        simp [Publisher.pending, Publisher.queuedCount, drained]
      rw [show takeQueued (more + 1) publisher = ([], publisher) from if_pos drained]
      exact none
    · rw [show takeQueued (more + 1) publisher = _ from if_neg drained]
      apply ih _
      rw [pending_cons drained, List.length_cons] at enough
      exact Nat.le_of_succ_le_succ enough

/-- A flush call with room for everything leaves nothing waiting. -/
theorem flush_drains (publisher : Publisher) {targets : List Target} (bound : targets ≠ [])
    (enough : publisher.waiting.length ≤ maxSamples) :
    (flush publisher maxSamples targets).2.waiting = [] := by
  cases held : publisher.monitorStage with
  | none =>
    rw [flush_queued bound (.inr held)]
    have stage := (takeQueued_pending maxSamples publisher).2
    rw [Publisher.waiting, held, Option.toList_none, List.nil_append] at enough
    rw [Publisher.waiting, stage, held]
    exact takeQueued_drains maxSamples publisher enough
  | some report =>
    rw [Publisher.waiting, held, Option.toList_some, List.singleton_append,
      List.length_cons] at enough
    obtain ⟨more, rfl⟩ : ∃ more, maxSamples = more + 1 := ⟨maxSamples - 1, by omega⟩
    have stage := (takeQueued_pending more { publisher with monitorStage := none }).2
    rw [flush_staged bound held, Publisher.waiting, stage]
    exact takeQueued_drains more _ (Nat.le_of_succ_le_succ enough)

private theorem waiting_publisher (world : World) :
    world.publisher.waiting = world.staged ++ world.pending := by
  unfold Publisher.waiting World.publisher World.staged
  split <;> rfl

/-- From any point on, one flush call that is let through takes whatever waits. -/
theorem flush_takes {world : World} (settled : Settled world) (idle : world.consumer = .idle)
    (enough : world.queuedCount ≤ maxSamples) :
    ∃ opened next, step world (.flush maxSamples true) = some opened ∧
      Alone .consume opened next ∧ next.consumer = .idle ∧
      next.taken = world.published ∧ next.takenDocuments = world.documents := by
  have bound : [Target.mk .espNow none] ≠ [] := nofun
  obtain ⟨opened, next, opens, alone, rests, after, -, published, documents⟩ :=
    flush_alone idle maxSamples bound
  have counted : world.publisher.waiting.length = world.queuedCount := by
    rw [waiting_publisher, List.length_append, World.pending, length_pending, Nat.add_comm]
    apply congrArg (_ + ·)
    unfold World.staged
    split <;> rfl
  have empty := flush_drains world.publisher bound (counted.trans_le enough)
  rw [← after, waiting_publisher, List.append_eq_nil_iff] at empty
  obtain ⟨steps, ran⟩ := alone
  have later := run_invariant settled_step (settled_step settled opens) ran
  have samples := later.exchanged.inOrder
  have reports := later.exchanged.documentsInOrder
  rw [published, empty.2, List.append_nil] at samples
  rw [documents, empty.1, List.append_nil] at reports
  exact ⟨opened, next, opens, ⟨steps, ran⟩, rests, samples.symm, reports.symm⟩

/-- A queue that loses nothing, repeats nothing and changes nothing on the way. -/
structure ExactlyOnce (world : World) : Prop where
  /-- The visible samples are those whose calls answered, and at most one whose call has yet to. -/
  queued : world.published = world.queued true ++ world.producer.uncounted
  inOrder : world.published = world.taken ++ world.pending
  inHand : ∀ maxSamples processed, world.consumer = .sending maxSamples processed →
    ∃ later, world.published =
      world.taken ++ world.queue (world.readIndex.toNat % kQueueCapacity) :: later
  documentsQueued : world.documents = world.queued false ++ world.producer.uncountedDocuments
  documentsInOrder : world.documents = world.takenDocuments ++ world.staged
  documentInHand : ∀ maxSamples, world.consumer = .sendingDocument maxSamples →
    world.documents = world.takenDocuments ++ [world.stage]
  /-- A report that is waiting stays as it is until flush has been through it. -/
  documentKept : world.stagePending = true → ∀ event next, step world event = some next →
    next.stage = world.stage
  room : world.pending.length ≤ kQueueCapacity
  refused : ∀ entry ∈ world.returned, Refusal entry.1 entry.2
  counted : world.queuedTotal + UInt32.ofNat (world.producer.uncounted.length +
      world.producer.uncountedDocuments.length) =
    UInt32.ofNat (world.processed + world.queuedCount)
  /-- A flush call that can take them all leaves none. -/
  taken : world.consumer = .idle → ∀ maxSamples, world.queuedCount ≤ maxSamples →
    ∃ opened next, step world (.flush maxSamples true) = some opened ∧
      Alone .consume opened next ∧ next.consumer = .idle ∧
      next.taken = world.published ∧ next.takenDocuments = world.documents

theorem samples_exactly_once (events : List Event) (world : World)
    (ran : run step .initial events = some world) : ExactlyOnce world := by
  have settled := settled_run ran
  have exchanged := settled.exchanged
  have consuming := exchanged.consumer
  refine ⟨settled.counted.samples, exchanged.inOrder, ?_, settled.counted.documents,
    exchanged.documentsInOrder, ?_, ?_, ?_, settled.answered, count_of_settled settled, ?_⟩
  · intro maxSamples processed at_
    rw [at_] at consuming
    exact ⟨_, exchanged.inOrder.trans
      (congrArg (world.taken ++ ·) (@pending_cons world.publisher consuming))⟩
  · intro maxSamples at_
    rw [at_] at consuming
    exact exchanged.documentsInOrder.trans
      (congrArg (world.takenDocuments ++ ·) (if_pos consuming))
  · exact fun waiting event next stepped => stage_step exchanged stepped waiting
  · rw [World.pending, length_pending]
    exact exchanged.room
  · exact fun idle maxSamples enough => flush_takes settled idle enough

/-- A sample handed over, counted, and taken while the next is being published. -/
theorem samples_exactly_once_taken : ExactlyOnce ((run step .initial
    [.configure, .publish 1 (some [1, 0]) 7, .produce none, .produce (some 9), .produce none,
      .produce none, .produce none, .flush 1 true, .consume, .consume,
      .publish 1 (some [1, 1]) 8, .produce none, .consume]).getD .initial) :=
  samples_exactly_once
    [.configure, .publish 1 (some [1, 0]) 7, .produce none, .produce (some 9), .produce none,
      .produce none, .produce none, .flush 1 true, .consume, .consume,
      .publish 1 (some [1, 1]) 8, .produce none, .consume] _ rfl

/-- Between its two stores a publish call has made visible what it has not counted. -/
theorem count_behind : ¬ ∀ (events : List Event) (world : World),
    run step .initial events = some world →
      world.queuedTotal = UInt32.ofNat (world.processed + world.queuedCount) := by
  intro always
  have behind := always [.configure, .publish 1 (some [1, 0]) 7, .produce none,
    .produce (some 9), .produce none, .produce none] _ rfl
  exact absurd behind (by decide)

end BallyOS.Telemetry
