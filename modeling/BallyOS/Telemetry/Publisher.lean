import BallyOS.Btp.Endpoint
import BallyOS.Library.LittleEndian
import Mathlib.Data.List.Range
import Mathlib.Logic.Function.Basic

/-! The telemetry publisher: a producer puts numbered samples into a queue of
sixteen, or a report into the one staging slot, and a consumer takes them out
and offers each to every target that is subscribed to its topic. -/
namespace BallyOS.Telemetry
open Btp Library

def kSystemMonitorTopicId : UInt16 := 0x0003
def kSchemaVersion : UInt16 := 1
def kQueueCapacity : Nat := 16
def kArraySensorChannels : Nat := 8
def kSensorsPayloadSize : Nat := 26 + kArraySensorChannels
def kMaxPayloadSize : Nat := kSensorsPayloadSize
def kMaxSystemMonitorTextSize : Nat := 1800

structure Sample where
  timestampUs : UInt64
  sequence : UInt32
  topicId : UInt16
  payload : List UInt8
deriving Repr, DecidableEq

/-- What every target is sent for a sample. -/
def Sample.message (sample : Sample) : Message :=
  ⟨.telemetry, sample.topicId, sample.timestampUs, sample.payload⟩

inductive PublishResult
  | queued | notConfigured | queueFull | invalidValue | sequenceUnavailable
deriving Repr, DecidableEq

/-- The queue's two indices only ever grow and wrap; a slot is an index modulo
the capacity. -/
structure Publisher where
  configured : Bool
  queue : Nat → Sample
  readIndex : UInt32
  writeIndex : UInt32
  monitorStage : Option Sample

def Publisher.empty : Publisher := ⟨false, fun _ => ⟨0, 0, 0, []⟩, 0, 0, none⟩

def configure (publisher : Publisher) : Publisher := { publisher with configured := true }

namespace Publisher

def queuedCount (publisher : Publisher) : Nat :=
  (publisher.writeIndex - publisher.readIndex).toNat

/-- The samples between the two indices, oldest first. -/
def pending (publisher : Publisher) : List Sample :=
  (List.range publisher.queuedCount).map fun position =>
    publisher.queue ((publisher.readIndex.toNat + position) % kQueueCapacity)

/-- Everything a flush has still to take. -/
def waiting (publisher : Publisher) : List Sample :=
  publisher.monitorStage.toList ++ publisher.pending

def put (publisher : Publisher) (sample : Sample) : Publisher :=
  { publisher with
    queue := Function.update publisher.queue
      (publisher.writeIndex.toNat % kQueueCapacity) sample
    writeIndex := publisher.writeIndex + 1 }

private theorem writeSlot (publisher : Publisher) :
    publisher.writeIndex.toNat % kQueueCapacity =
      (publisher.readIndex.toNat + publisher.queuedCount) % kQueueCapacity := by
  simp only [queuedCount, kQueueCapacity, UInt32.toNat_sub]
  have := publisher.writeIndex.toNat_lt
  have := publisher.readIndex.toNat_lt
  omega

/-- While there is room, the slot that is written next is none of those pending. -/
theorem pending_fill (publisher : Publisher) (sample : Sample)
    (room : publisher.queuedCount < kQueueCapacity) :
    { publisher with
      queue := Function.update publisher.queue
        (publisher.writeIndex.toNat % kQueueCapacity) sample }.pending = publisher.pending := by
  refine List.map_congr_left fun earlier member => ?_
  have before : earlier < publisher.queuedCount := List.mem_range.mp member
  have apart : (publisher.readIndex.toNat + earlier) % kQueueCapacity ≠
      (publisher.readIndex.toNat + publisher.queuedCount) % kQueueCapacity := by
    simp only [kQueueCapacity] at room ⊢
    omega
  rw [writeSlot]
  exact Function.update_of_ne apart sample publisher.queue

/-- Storing the index makes the next slot the last one pending. -/
theorem pending_store (publisher : Publisher)
    (room : publisher.queuedCount < kQueueCapacity) :
    { publisher with writeIndex := publisher.writeIndex + 1 }.pending =
      publisher.pending ++ [publisher.queue (publisher.writeIndex.toNat % kQueueCapacity)] := by
  have counted : { publisher with writeIndex := publisher.writeIndex + 1 }.queuedCount =
      publisher.queuedCount + 1 := by
    simp only [queuedCount, kQueueCapacity, UInt32.toNat_sub, UInt32.toNat_add,
      UInt32.reduceToNat] at room ⊢
    omega
  rw [pending, counted, List.range_succ, List.map_append, List.map_singleton, writeSlot]
  rfl

private theorem pending_put (publisher : Publisher) (sample : Sample)
    (room : publisher.queuedCount < kQueueCapacity) :
    (publisher.put sample).pending = publisher.pending ++ [sample] := by
  have filled := publisher.pending_fill sample room
  have stored := pending_store { publisher with
    queue := Function.update publisher.queue
      (publisher.writeIndex.toNat % kQueueCapacity) sample } room
  rw [filled] at stored
  dsimp only at stored
  rw [Function.update_self] at stored
  exact stored

end Publisher

theorem waiting_configure : (configure .empty).waiting = [] := by
  simp [configure, Publisher.empty, Publisher.waiting, Publisher.pending, Publisher.queuedCount]

def packSystemMonitor (text : List UInt8) : Option (List UInt8) :=
  if text.length > kMaxSystemMonitorTextSize then none
  else some (toBytes 2 kSchemaVersion.toNat ++ text)

/-- The common end of the publish functions, for a packed payload. -/
def enqueue (publisher : Publisher) (topicId : UInt16) (payload : List UInt8)
    (timestampUs : UInt64) (reserved : Option UInt32) : PublishResult × Publisher :=
  if !publisher.configured then (.notConfigured, publisher)
  else if payload = [] ∨ payload.length > kMaxPayloadSize ∨ topicId = 0 then
    (.invalidValue, publisher)
  else if publisher.queuedCount ≥ kQueueCapacity then (.queueFull, publisher)
  else match reserved with
    | none => (.sequenceUnavailable, publisher)
    | some sequence => (.queued, publisher.put ⟨timestampUs, sequence, topicId, payload⟩)

/-- A report waits for the one before it to be taken. -/
def publishSystemMonitor (publisher : Publisher) (text : List UInt8) (timestampUs : UInt64)
    (reserved : Option UInt32) : PublishResult × Publisher :=
  if !publisher.configured then (.notConfigured, publisher)
  else if publisher.monitorStage.isSome then (.queueFull, publisher)
  else match packSystemMonitor text with
    | none => (.invalidValue, publisher)
    | some payload =>
      match reserved with
      | none => (.sequenceUnavailable, publisher)
      | some sequence => (.queued, { publisher with
          monitorStage := some ⟨timestampUs, sequence, kSystemMonitorTopicId, payload⟩ })

/-- A bound target, with its subscription table when it has one. -/
structure Target where
  link : Link
  subscriptions : Option (UInt16 → UInt16)

/-- Whether a target is to be sent a topic; without a table it is not gated. -/
def Target.wants (target : Target) (topicId : UInt16) : Bool :=
  match target.subscriptions with
  | none => true
  | some subscriberCount => subscriberCount topicId ≠ 0

/-- The sends of one sample, one for each target that wants its topic. -/
def deliver (targets : List Target) (sample : Sample) : List (Link × Sample) :=
  (targets.filter fun target => target.wants sample.topicId).map fun target =>
    (target.link, sample)

/-- The queue part of a flush: the samples it takes out. -/
def takeQueued : Nat → Publisher → List Sample × Publisher
  | 0, publisher => ([], publisher)
  | more + 1, publisher =>
    if publisher.readIndex = publisher.writeIndex then ([], publisher)
    else
      let sample := publisher.queue (publisher.readIndex.toNat % kQueueCapacity)
      let (taken, after) := takeQueued more { publisher with readIndex := publisher.readIndex + 1 }
      (sample :: taken, after)

/-- The samples a flush takes, each of which it delivers; the report goes first. -/
def flush (publisher : Publisher) (maxSamples : Nat) (targets : List Target) :
    List Sample × Publisher :=
  if targets = [] then ([], publisher)
  else match publisher.monitorStage, maxSamples with
    | _, 0 => ([], publisher)
    | some report, more + 1 =>
      let (taken, after) := takeQueued more { publisher with monitorStage := none }
      (report :: taken, after)
    | none, more + 1 => takeQueued (more + 1) publisher

/-- A publish call adds one sample under the reserved number, or nothing. -/
theorem enqueue_waiting {publisher after : Publisher}
    (called : enqueue publisher topicId payload timestampUs reserved = (result, after)) :
    (result = .queued ∧ ∃ sequence, reserved = some sequence ∧
      after.waiting = publisher.waiting ++ [⟨timestampUs, sequence, topicId, payload⟩]) ∨
    (result ≠ .queued ∧ after = publisher) := by
  unfold enqueue at called
  split at called
  · cases called
    exact .inr ⟨by simp, rfl⟩
  split at called
  · cases called
    exact .inr ⟨by simp, rfl⟩
  split at called
  · cases called
    exact .inr ⟨by simp, rfl⟩
  rename_i room
  split at called
  · cases called
    exact .inr ⟨by simp, rfl⟩
  rename_i sequence
  cases called
  refine .inl ⟨rfl, sequence, rfl, ?_⟩
  have added := publisher.pending_put ⟨timestampUs, sequence, topicId, payload⟩
    (Nat.lt_of_not_le room)
  simp only [Publisher.waiting, added, List.append_assoc]
  rfl

theorem publishSystemMonitor_waiting {publisher after : Publisher}
    (called : publishSystemMonitor publisher text timestampUs reserved = (result, after)) :
    (result = .queued ∧ ∃ sequence payload, reserved = some sequence ∧
      packSystemMonitor text = some payload ∧
      after.waiting = ⟨timestampUs, sequence, kSystemMonitorTopicId, payload⟩ ::
        publisher.waiting) ∨
    (result ≠ .queued ∧ after = publisher) := by
  unfold publishSystemMonitor at called
  split at called
  · cases called
    exact .inr ⟨by simp, rfl⟩
  split at called
  · cases called
    exact .inr ⟨by simp, rfl⟩
  rename_i free
  split at called
  · cases called
    exact .inr ⟨by simp, rfl⟩
  rename_i payload packed
  split at called
  · cases called
    exact .inr ⟨by simp, rfl⟩
  rename_i sequence
  cases called
  refine .inl ⟨rfl, sequence, payload, rfl, packed, ?_⟩
  have none : publisher.monitorStage = none := by simpa using free
  simp [Publisher.waiting, none, Publisher.pending, Publisher.queuedCount]

theorem pending_cons {publisher : Publisher}
    (some : publisher.readIndex ≠ publisher.writeIndex) :
    publisher.pending = publisher.queue (publisher.readIndex.toNat % kQueueCapacity) ::
      { publisher with readIndex := publisher.readIndex + 1 }.pending := by
  have apart : publisher.readIndex.toNat ≠ publisher.writeIndex.toNat :=
    fun same => some (UInt32.toNat_inj.mp same)
  have read := publisher.readIndex.toNat_lt
  have write := publisher.writeIndex.toNat_lt
  have counted : publisher.queuedCount =
      { publisher with readIndex := publisher.readIndex + 1 }.queuedCount + 1 := by
    simp only [Publisher.queuedCount, UInt32.toNat_sub, UInt32.toNat_add, UInt32.reduceToNat]
    omega
  rw [Publisher.pending, counted, List.range_succ_eq_map, List.map_cons, List.map_map]
  congr 1
  refine List.map_congr_left fun position _ => ?_
  have same : (publisher.readIndex.toNat + (position + 1)) % kQueueCapacity =
      ((publisher.readIndex + 1).toNat + position) % kQueueCapacity := by
    simp only [kQueueCapacity, UInt32.toNat_add, UInt32.reduceToNat]
    omega
  exact congrArg publisher.queue same

theorem takeQueued_pending (more : Nat) (publisher : Publisher) :
    (takeQueued more publisher).1 ++ (takeQueued more publisher).2.pending = publisher.pending ∧
      (takeQueued more publisher).2.monitorStage = publisher.monitorStage := by
  induction more generalizing publisher with
  | zero => exact ⟨rfl, rfl⟩
  | succ more ih =>
    simp only [takeQueued]
    split
    · exact ⟨rfl, rfl⟩
    · rename_i filled
      obtain ⟨rest, stage⟩ := ih { publisher with readIndex := publisher.readIndex + 1 }
      refine ⟨?_, stage⟩
      rw [pending_cons filled, List.cons_append, rest]

theorem flush_staged {publisher : Publisher} {targets : List Target}
    (bound : targets ≠ []) (held : publisher.monitorStage = some report) (more : Nat) :
    flush publisher (more + 1) targets =
      (report :: (takeQueued more { publisher with monitorStage := none }).1,
        (takeQueued more { publisher with monitorStage := none }).2) := by
  simp only [flush, if_neg bound, held]

theorem flush_queued {publisher : Publisher} {targets : List Target}
    (bound : targets ≠ []) (free : maxSamples = 0 ∨ publisher.monitorStage = none) :
    flush publisher maxSamples targets = takeQueued maxSamples publisher := by
  cases maxSamples with
  | zero => simp [flush, takeQueued]
  | succ more =>
    have none := free.resolve_left (Nat.succ_ne_zero more)
    simp only [flush, if_neg bound, none]

/-- What a flush takes and what it leaves are what was waiting, in order. -/
theorem flush_waiting (publisher : Publisher) (maxSamples : Nat) (targets : List Target) :
    (flush publisher maxSamples targets).1 ++ (flush publisher maxSamples targets).2.waiting =
      publisher.waiting := by
  unfold flush
  split
  · rfl
  cases maxSamples with
  | zero => rfl
  | succ more =>
    cases staged : publisher.monitorStage with
    | none =>
      obtain ⟨rest, stage⟩ := takeQueued_pending (more + 1) publisher
      simp [Publisher.waiting, stage, staged, rest]
    | some report =>
      obtain ⟨rest, stage⟩ := takeQueued_pending more { publisher with monitorStage := none }
      simp only [Publisher.waiting, stage, staged]
      exact congrArg (report :: ·) rest

end BallyOS.Telemetry
