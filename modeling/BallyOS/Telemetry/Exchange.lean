import BallyOS.Telemetry.Publisher
import BallyOS.Library.Run

/-! The publisher between its two tasks. The control task is the only one that
publishes, the communication task the only one that flushes, and nothing but
the order of their stores keeps them apart: `step` moves one of them across one
shared load or store, so a list of events is an interleaving. Each side alone
writes its own index, so the copy it works with is the index itself. -/
namespace BallyOS.Telemetry
open Btp Library

/-- Where the control task is in a publish call. -/
inductive Producer
  | idle
  | checking (topicId : UInt16) (payload : List UInt8) (timestampUs : UInt64)
  | reserving (topicId : UInt16) (payload : List UInt8) (timestampUs : UInt64)
  | filling (sample : Sample)
  | storing (sample : Sample)
  | counting (sample : Sample)
  | staging (text : List UInt8) (timestampUs : UInt64)
  | packing (text : List UInt8) (timestampUs : UInt64)
  | reservingDocument (payload : List UInt8) (timestampUs : UInt64)
  | fillingDocument (sample : Sample)
  | storingPending (sample : Sample)
  | countingDocument (sample : Sample)
deriving Repr, DecidableEq

/-- Where the communication task is in a flush call. -/
inductive Consumer
  | idle
  | checkingStage (maxSamples : Nat)
  | sendingDocument (maxSamples : Nat)
  | looking (maxSamples processed : Nat)
  | sending (maxSamples processed : Nat)
deriving Repr, DecidableEq

/-- What is noted of a publish call: the sample it was called with, how many
numeric samples were pending when it looked, and how many sequence numbers it
asked for. The sample's number is the one it was given. -/
structure Call where
  numeric : Bool
  sample : Sample
  seen : Option Nat := none
  asked : Nat := 0
deriving Repr, DecidableEq

def Call.sampling (topicId : UInt16) (payload : List UInt8) (timestampUs : UInt64) : Call :=
  ⟨true, ⟨timestampUs, 0, topicId, payload⟩, none, 0⟩

def Call.reporting (text : List UInt8) (timestampUs : UInt64) : Call :=
  ⟨false, ⟨timestampUs, 0, kSystemMonitorTopicId, (packSystemMonitor text).getD []⟩, none, 0⟩

/-- The publisher's fields and its two tasks. `published` on are kept by nobody:
what became visible to the other task, what flush has been through, and what the
calls answered. -/
structure World where
  configured : Bool
  queue : Nat → Sample
  readIndex : UInt32
  writeIndex : UInt32
  stage : Sample
  stagePending : Bool
  queuedTotal : UInt32
  producer : Producer
  consumer : Consumer
  published : List Sample
  documents : List Sample
  taken : List Sample
  takenDocuments : List Sample
  call : Call
  returned : List (Call × PublishResult)

inductive Event
  | configure
  /-- A numeric topic's publish function, with what its packer made of the values. -/
  | publish (topicId : UInt16) (packed : Option (List UInt8)) (timestampUs : UInt64)
  | publishSystemMonitor (text : List UInt8) (timestampUs : UInt64)
  /-- The control task's next step; the number is what the endpoint answers if it is asked. -/
  | produce (reserved : Option UInt32)
  | flush (maxSamples : Nat) (anyTarget : Bool)
  /-- The communication task's next step. -/
  | consume
deriving Repr, DecidableEq

namespace World

def initial : World where
  configured := false
  queue := fun _ => ⟨0, 0, 0, []⟩
  readIndex := 0
  writeIndex := 0
  stage := ⟨0, 0, kSystemMonitorTopicId, []⟩
  stagePending := false
  queuedTotal := 0
  producer := .idle
  consumer := .idle
  published := []
  documents := []
  taken := []
  takenDocuments := []
  call := ⟨true, ⟨0, 0, 0, []⟩, none, 0⟩
  returned := []

/-- What a call that is not interrupted works on. -/
def publisher (world : World) : Publisher where
  configured := world.configured
  queue := world.queue
  readIndex := world.readIndex
  writeIndex := world.writeIndex
  monitorStage := if world.stagePending then some world.stage else none

def pending (world : World) : List Sample := world.publisher.pending

/-- The report that waits, when there is one. -/
def staged (world : World) : List Sample := if world.stagePending then [world.stage] else []

def queuedCount (world : World) : Nat :=
  (world.writeIndex - world.readIndex).toNat + if world.stagePending then 1 else 0

/-- How many samples flush has been through. -/
def processed (world : World) : Nat := world.taken.length + world.takenDocuments.length

/-- A publish call returns. -/
def answer (world : World) (result : PublishResult) : World :=
  { world with producer := .idle, returned := world.returned ++ [(world.call, result)] }

/-- The producer's next step. The slot and the stage are written before the store
that makes them visible, and the count follows it. -/
def produce (world : World) (reserved : Option UInt32) : Option World :=
  match world.producer with
  | .idle => none
  | .checking topicId payload timestampUs =>
    let looked := { world with call.seen := some world.pending.length }
    if world.publisher.queuedCount ≥ kQueueCapacity then some (looked.answer .queueFull)
    else some { looked with producer := .reserving topicId payload timestampUs }
  | .reserving topicId payload timestampUs =>
    let asked := { world with call.asked := world.call.asked + 1 }
    match reserved with
    | none => some (asked.answer .sequenceUnavailable)
    | some sequence =>
      some { asked with
        call.sample.sequence := sequence
        producer := .filling ⟨timestampUs, sequence, topicId, payload⟩ }
  | .filling sample => some { world with
      queue := Function.update world.queue (world.writeIndex.toNat % kQueueCapacity) sample
      producer := .storing sample }
  | .storing sample => some { world with
      writeIndex := world.writeIndex + 1
      published := world.published ++ [sample]
      producer := .counting sample }
  | .counting _ =>
    some ({ world with queuedTotal := world.queuedTotal + 1 }.answer .queued)
  | .staging text timestampUs =>
    if world.stagePending then some (world.answer .queueFull)
    else some { world with producer := .packing text timestampUs }
  | .packing text timestampUs =>
    match packSystemMonitor text with
    | none => some (world.answer .invalidValue)
    | some payload => some { world with
        stage := { world.stage with payload := payload }
        producer := .reservingDocument payload timestampUs }
  | .reservingDocument payload timestampUs =>
    let asked := { world with call.asked := world.call.asked + 1 }
    match reserved with
    | none => some (asked.answer .sequenceUnavailable)
    | some sequence => some { asked with
        call.sample.sequence := sequence
        producer := .fillingDocument ⟨timestampUs, sequence, kSystemMonitorTopicId, payload⟩ }
  | .fillingDocument sample => some { world with
      stage := { sample with payload := world.stage.payload }
      producer := .storingPending sample }
  | .storingPending sample => some { world with
      stagePending := true
      documents := world.documents ++ [sample]
      producer := .countingDocument sample }
  | .countingDocument _ =>
    some ({ world with queuedTotal := world.queuedTotal + 1 }.answer .queued)

/-- The consumer's next step. What it sends it reads where it stands, and lets go
of only after the last target was offered it. -/
def consume (world : World) : Option World :=
  match world.consumer with
  | .idle => none
  | .checkingStage maxSamples =>
    if 0 < maxSamples ∧ world.stagePending then
      some { world with consumer := .sendingDocument maxSamples }
    else some { world with consumer := .looking maxSamples 0 }
  | .sendingDocument maxSamples => some { world with
      stagePending := false
      takenDocuments := world.takenDocuments ++ [world.stage]
      consumer := .looking maxSamples 1 }
  | .looking maxSamples processed =>
    if processed < maxSamples ∧ world.readIndex ≠ world.writeIndex then
      some { world with consumer := .sending maxSamples processed }
    else some { world with consumer := .idle }
  | .sending maxSamples processed => some { world with
      readIndex := world.readIndex + 1
      taken := world.taken ++ [world.queue (world.readIndex.toNat % kQueueCapacity)]
      consumer := .looking maxSamples (processed + 1) }

end World

def step : Machine World Event := fun world event =>
  match event with
  | .configure => some { world with configured := true }
  | .publish topicId packed timestampUs =>
    if world.producer ≠ .idle then none
    else
      let called := { world with call := .sampling topicId (packed.getD []) timestampUs }
      match packed with
      | none => some (called.answer .invalidValue)
      | some payload =>
        if !world.configured then some (called.answer .notConfigured)
        else if payload = [] ∨ payload.length > kMaxPayloadSize ∨ topicId = 0 then
          some (called.answer .invalidValue)
        else some { called with producer := .checking topicId payload timestampUs }
  | .publishSystemMonitor text timestampUs =>
    if world.producer ≠ .idle then none
    else
      let called := { world with call := .reporting text timestampUs }
      if !world.configured then some (called.answer .notConfigured)
      else some { called with producer := .staging text timestampUs }
  | .produce reserved => world.produce reserved
  | .flush maxSamples anyTarget =>
    if world.consumer ≠ .idle then none
    else if anyTarget then some { world with consumer := .checkingStage maxSamples }
    else some world
  | .consume => world.consume

/-- The events that begin a call, or change what calls find. -/
inductive Opens (world : World) : World → Prop
  | configured : Opens world { world with configured := true }
  | refused (call : Call) (result : PublishResult) (idle : world.producer = .idle)
      (looked : call.seen = none ∧ call.asked = 0)
      (other : result ≠ .queued ∧ result ≠ .queueFull) :
      Opens world ({ world with call := call }.answer result)
  | publishing (topicId : UInt16) (payload : List UInt8) (timestampUs : UInt64)
      (idle : world.producer = .idle) :
      Opens world { world with
        call := .sampling topicId payload timestampUs
        producer := .checking topicId payload timestampUs }
  | staging (text : List UInt8) (timestampUs : UInt64) (idle : world.producer = .idle) :
      Opens world { world with
        call := .reporting text timestampUs
        producer := .staging text timestampUs }
  | flushing (maxSamples : Nat) (idle : world.consumer = .idle) :
      Opens world { world with consumer := .checkingStage maxSamples }
  | unbound : Opens world world

theorem step_cases {world next : World} {event : Event} (stepped : step world event = some next) :
    (∃ reserved, world.produce reserved = some next) ∨ world.consume = some next ∨
      Opens world next := by
  cases event with
  | configure =>
    cases stepped
    exact .inr (.inr .configured)
  | publish topicId packed timestampUs =>
    simp only [step, ne_eq, ite_not] at stepped
    split at stepped
    swap
    · cases stepped
    rename_i idle
    split at stepped
    · cases stepped
      exact .inr (.inr (.refused _ _ idle ⟨rfl, rfl⟩ ⟨nofun, nofun⟩))
    split at stepped
    · cases stepped
      exact .inr (.inr (.refused _ _ idle ⟨rfl, rfl⟩ ⟨nofun, nofun⟩))
    split at stepped
    · cases stepped
      exact .inr (.inr (.refused _ _ idle ⟨rfl, rfl⟩ ⟨nofun, nofun⟩))
    · cases stepped
      exact .inr (.inr (.publishing _ _ _ idle))
  | publishSystemMonitor text timestampUs =>
    simp only [step, ne_eq, ite_not] at stepped
    split at stepped
    swap
    · cases stepped
    rename_i idle
    split at stepped
    · cases stepped
      exact .inr (.inr (.refused _ _ idle ⟨rfl, rfl⟩ ⟨nofun, nofun⟩))
    · cases stepped
      exact .inr (.inr (.staging _ _ idle))
  | produce reserved => exact .inl ⟨reserved, stepped⟩
  | flush maxSamples anyTarget =>
    simp only [step, ne_eq, ite_not] at stepped
    split at stepped
    swap
    · cases stepped
    rename_i idle
    split at stepped
    · cases stepped
      exact .inr (.inr (.flushing _ idle))
    · cases stepped
      exact .inr (.inr .unbound)
  | consume => exact .inr (.inl stepped)

/-! ### The two sides keep apart -/

/-- What the producer relies on at each point of a call. -/
def Producer.Holds (world : World) : Producer → Prop
  | .reserving .. | .filling _ => world.publisher.queuedCount < kQueueCapacity
  | .storing sample => world.publisher.queuedCount < kQueueCapacity ∧
      world.queue (world.writeIndex.toNat % kQueueCapacity) = sample
  | .packing .. => world.stagePending = false
  | .reservingDocument payload _ => world.stagePending = false ∧ world.stage.payload = payload
  | .fillingDocument sample => world.stagePending = false ∧ world.stage.payload = sample.payload
  | .storingPending sample => world.stagePending = false ∧ world.stage = sample
  | _ => True

/-- What the consumer relies on. -/
def Consumer.Holds (world : World) : Consumer → Prop
  | .sendingDocument _ => world.stagePending = true
  | .sending .. => world.readIndex ≠ world.writeIndex
  | _ => True

/-- What became visible is what flush has been through and, after it, what is pending. -/
structure Exchanged (world : World) : Prop where
  inOrder : world.published = world.taken ++ world.pending
  documentsInOrder : world.documents = world.takenDocuments ++ world.staged
  room : world.publisher.queuedCount ≤ kQueueCapacity
  producer : world.producer.Holds world
  consumer : world.consumer.Holds world

theorem length_pending (publisher : Publisher) :
    publisher.pending.length = publisher.queuedCount := by
  simp [Publisher.pending]

/-- With room left the write index is behind no full turn. -/
theorem ne_store (publisher : Publisher) (room : publisher.queuedCount < kQueueCapacity) :
    publisher.readIndex ≠ publisher.writeIndex + 1 := by
  intro same
  simp only [Publisher.queuedCount, kQueueCapacity, UInt32.toNat_sub] at room
  have wrapped := congrArg UInt32.toNat same
  simp only [UInt32.toNat_add, UInt32.reduceToNat] at wrapped
  have := publisher.writeIndex.toNat_lt
  have := publisher.readIndex.toNat_lt
  omega

theorem exchanged_initial : Exchanged .initial where
  inOrder := by simp [World.initial, World.pending, World.publisher, Publisher.pending,
    Publisher.queuedCount]
  documentsInOrder := rfl
  room := by decide
  producer := trivial
  consumer := trivial

/-- A step of the producer leaves it where the next one starts. -/
theorem exchanged_produce {world next : World} (holds : Exchanged world)
    (stepped : world.produce reserved = some next) : Exchanged next := by
  have fits := holds.producer
  unfold World.produce at stepped
  split at stepped
  case h_1 => cases stepped
  case h_2 =>
    split at stepped
    · cases stepped
      exact ⟨holds.inOrder, holds.documentsInOrder, holds.room, trivial, holds.consumer⟩
    · rename_i room
      cases stepped
      exact ⟨holds.inOrder, holds.documentsInOrder, holds.room, Nat.lt_of_not_le room,
        holds.consumer⟩
  case h_3 at_ =>
    rw [at_] at fits
    split at stepped
    · cases stepped
      exact ⟨holds.inOrder, holds.documentsInOrder, holds.room, trivial, holds.consumer⟩
    · cases stepped
      exact ⟨holds.inOrder, holds.documentsInOrder, holds.room, fits, holds.consumer⟩
  case h_4 sample at_ =>
    rw [at_] at fits
    cases stepped
    refine ⟨?_, holds.documentsInOrder, holds.room, ⟨fits, Function.update_self ..⟩,
      holds.consumer⟩
    exact holds.inOrder.trans (congrArg (world.taken ++ ·)
      (world.publisher.pending_fill sample fits).symm)
  case h_5 sample at_ =>
    rw [at_] at fits
    obtain ⟨room, written⟩ := fits
    have stored := world.publisher.pending_store room
    cases stepped
    refine ⟨?_, holds.documentsInOrder, ?_, trivial, ?_⟩
    · have grown : World.pending { world with writeIndex := world.writeIndex + 1 } =
          world.pending ++ [sample] := by
        rw [← written]
        exact stored
      calc world.published ++ [sample] = world.taken ++ (world.pending ++ [sample]) := by
            rw [holds.inOrder, List.append_assoc]
        _ = _ := congrArg (world.taken ++ ·) grown.symm
    · have counted := congrArg List.length stored
      rw [length_pending, List.length_append, length_pending] at counted
      exact counted.trans_le room
    · have apart := ne_store world.publisher room
      have before := holds.consumer
      show Consumer.Holds _ world.consumer
      cases at_' : world.consumer with
      | sending => exact apart
      | sendingDocument =>
        rw [at_'] at before
        exact before
      | _ => trivial
  case h_6 =>
    cases stepped
    exact ⟨holds.inOrder, holds.documentsInOrder, holds.room, trivial, holds.consumer⟩
  case h_7 =>
    split at stepped
    · cases stepped
      exact ⟨holds.inOrder, holds.documentsInOrder, holds.room, trivial, holds.consumer⟩
    · rename_i clear
      have free : world.stagePending = false := by simpa using clear
      cases stepped
      exact ⟨holds.inOrder, holds.documentsInOrder, holds.room, free, holds.consumer⟩
  case h_8 text _ at_ =>
    rw [at_] at fits
    have free : world.stagePending = false := fits
    split at stepped
    · cases stepped
      exact ⟨holds.inOrder, holds.documentsInOrder, holds.room, trivial, holds.consumer⟩
    · cases stepped
      refine ⟨holds.inOrder, ?_, holds.room, ⟨free, rfl⟩, holds.consumer⟩
      simpa [World.staged, free] using holds.documentsInOrder
  case h_9 at_ =>
    rw [at_] at fits
    split at stepped
    · cases stepped
      exact ⟨holds.inOrder, holds.documentsInOrder, holds.room, trivial, holds.consumer⟩
    · cases stepped
      exact ⟨holds.inOrder, holds.documentsInOrder, holds.room, fits, holds.consumer⟩
  case h_10 sample at_ =>
    rw [at_] at fits
    obtain ⟨free, packed⟩ := fits
    cases stepped
    refine ⟨holds.inOrder, ?_, holds.room, ⟨free, by rw [packed]⟩, holds.consumer⟩
    simpa [World.staged, free] using holds.documentsInOrder
  case h_11 sample at_ =>
    rw [at_] at fits
    obtain ⟨free, staged⟩ := fits
    cases stepped
    refine ⟨holds.inOrder, ?_, holds.room, trivial, ?_⟩
    · simpa [World.staged, free, staged] using holds.documentsInOrder
    · have before := holds.consumer
      show Consumer.Holds _ world.consumer
      cases at_' : world.consumer with
      | sendingDocument => rfl
      | sending =>
        rw [at_'] at before
        exact before
      | _ => trivial
  case h_12 =>
    cases stepped
    exact ⟨holds.inOrder, holds.documentsInOrder, holds.room, trivial, holds.consumer⟩

private theorem exchanged_consume {world next : World} (holds : Exchanged world)
    (stepped : world.consume = some next) : Exchanged next := by
  have fits := holds.consumer
  unfold World.consume at stepped
  split at stepped
  case h_1 => cases stepped
  case h_2 =>
    split at stepped
    · rename_i waiting
      cases stepped
      exact ⟨holds.inOrder, holds.documentsInOrder, holds.room, holds.producer, waiting.2⟩
    · cases stepped
      exact ⟨holds.inOrder, holds.documentsInOrder, holds.room, holds.producer, trivial⟩
  case h_3 at_ =>
    rw [at_] at fits
    have waiting : world.stagePending = true := fits
    cases stepped
    refine ⟨holds.inOrder, ?_, holds.room, ?_, trivial⟩
    · simpa [World.staged, waiting] using holds.documentsInOrder
    · have before := holds.producer
      show Producer.Holds _ world.producer
      cases at_' : world.producer with
      | packing => rfl
      | reservingDocument | fillingDocument | storingPending =>
        rw [at_'] at before
        exact ⟨rfl, before.2⟩
      | _ =>
        rw [at_'] at before
        exact before
  case h_4 =>
    split at stepped
    · rename_i more
      cases stepped
      exact ⟨holds.inOrder, holds.documentsInOrder, holds.room, holds.producer, more.2⟩
    · cases stepped
      exact ⟨holds.inOrder, holds.documentsInOrder, holds.room, holds.producer, trivial⟩
  case h_5 at_ =>
    rw [at_] at fits
    have taken := @pending_cons world.publisher fits
    have fewer : ({ world.publisher with readIndex := world.readIndex + 1 } : Publisher).queuedCount
        < world.publisher.queuedCount := by
      have counted := congrArg List.length taken
      rw [List.length_cons, length_pending, length_pending] at counted
      exact Nat.lt_of_succ_le counted.ge
    cases stepped
    refine ⟨?_, holds.documentsInOrder, fewer.le.trans holds.room, ?_, trivial⟩
    · rw [holds.inOrder, World.pending, taken]
      exact List.append_cons ..
    · have before := holds.producer
      show Producer.Holds _ world.producer
      cases at_' : world.producer with
      | reserving | filling =>
        rw [at_'] at before
        exact fewer.trans before
      | storing =>
        rw [at_'] at before
        exact ⟨fewer.trans before.1, before.2⟩
      | _ =>
        rw [at_'] at before
        exact before

theorem exchanged_step {world next : World} {event : Event} (holds : Exchanged world)
    (stepped : step world event = some next) : Exchanged next := by
  obtain ⟨reserved, stepped⟩ | stepped | opened := step_cases stepped
  · exact exchanged_produce holds stepped
  · exact exchanged_consume holds stepped
  cases opened with
  | configured =>
    exact ⟨holds.inOrder, holds.documentsInOrder, holds.room, holds.producer, holds.consumer⟩
  | refused =>
    exact ⟨holds.inOrder, holds.documentsInOrder, holds.room, trivial, holds.consumer⟩
  | publishing =>
    exact ⟨holds.inOrder, holds.documentsInOrder, holds.room, trivial, holds.consumer⟩
  | staging =>
    exact ⟨holds.inOrder, holds.documentsInOrder, holds.room, trivial, holds.consumer⟩
  | flushing =>
    exact ⟨holds.inOrder, holds.documentsInOrder, holds.room, holds.producer, trivial⟩
  | unbound => exact holds

end BallyOS.Telemetry
