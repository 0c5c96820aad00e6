import BallyOS.Btp.Interface
import BallyOS.Library.Run
import BallyOS.Library.SlotRing

/-! The radio scheduler. A frame waits in the queue of its class; `pump` gives
one frame at a time to the radio and waits for its callback, `pumpTelemetry`
gives telemetry to the radio without waiting. Calls happen one after another,
so no call finds a queue's lock taken. -/
namespace BallyOS.Tx
open Btp Library

inductive Priority
  | commandResult
  | status
  | terminal
  | criticalLog
  | telemetry
  | debug
deriving Repr, DecidableEq

namespace Priority

def index : Priority → Nat
  | commandResult => 0
  | status => 1
  | terminal => 2
  | criticalLog => 3
  | telemetry => 4
  | debug => 5

/-- Every class, the first to be served first. -/
def all : List Priority := [commandResult, status, terminal, criticalLog, telemetry, debug]

end Priority

def kQueueCapacity : Priority → Nat
  | .commandResult => 8
  | .status => 16
  | .terminal => 16
  | .criticalLog => 8
  | .telemetry => 16
  | .debug => 8

def kDefaultDeliveryTimeoutMs : UInt64 := 250

def classify (header : Header) : Priority :=
  if header.type = .command ∧ header.objectId = 2 then .commandResult
  else if header.type = .control then .status
  else if header.type = .terminal then .terminal
  else if header.type = .log ∧ (header.objectId = 2 ∨ header.objectId = 3) then .criticalLog
  else if header.type = .telemetry then .telemetry
  else .debug

/-- A frame's storage. Bytes past the size are left from earlier frames. -/
structure EncodedFrame where
  size : UInt16 := 0
  bytes : List UInt8 := []
deriving DecidableEq

namespace EncodedFrame

def copyFrom (data : List UInt8) (frame : EncodedFrame) : EncodedFrame :=
  ⟨UInt16.ofNat data.length, data ++ frame.bytes.drop data.length⟩

/-- What the radio is given. -/
def data (frame : EncodedFrame) : List UInt8 := frame.bytes.take frame.size.toNat

theorem data_copyFrom {source : List UInt8} (short : source.length < UInt16.size)
    (frame : EncodedFrame) : (frame.copyFrom source).data = source := by
  simp only [data, copyFrom, UInt16.toNat_ofNat_of_lt' short, List.take_left]

end EncodedFrame

inductive DeliveryEvent
  | none
  | success
  | failure
deriving Repr, DecidableEq

structure Stats where
  accepted : UInt32 := 0
  delivered : UInt32 := 0
  timeouts : UInt32 := 0
  dropped : UInt32 := 0
  deliveryFailed : UInt32 := 0
  queuedByPriority : Priority → UInt32 := fun _ => 0
  droppedByPriority : Priority → UInt32 := fun _ => 0
  telemetrySent : UInt32 := 0
  telemetryDropped : UInt32 := 0

/-- How the wait for one frame ended. -/
inductive Outcome
  | delivered
  | failed
  | timedOut
  | refused
deriving Repr, DecidableEq

def Outcome.count (stats : Stats) : Outcome → Stats
  | delivered => { stats with delivered := stats.delivered + 1 }
  | failed =>
    { stats with deliveryFailed := stats.deliveryFailed + 1, dropped := stats.dropped + 1 }
  | timedOut => { stats with timeouts := stats.timeouts + 1, dropped := stats.dropped + 1 }
  | refused => { stats with dropped := stats.dropped + 1 }

/-- What happened so far, which the scheduler itself does not keep. Frames that
`pump` handed over are numbered from 1. -/
structure History where
  accepted : List (Priority × List UInt8) := []
  handed : List (Priority × List UInt8) := []
  refusedEnqueues : Nat := 0
  handedOver : Nat := 0
  outcomes : List (Nat × Outcome) := []
  reports : List (Nat × Bool) := []

/-- Frames the radio refused when `pump` handed them over. -/
def refusals (outcomes : List (Nat × Outcome)) : Nat :=
  (outcomes.filter fun entry => entry.2 = .refused).length

structure Scheduler where
  queues : Priority → SlotRing EncodedFrame := fun _ => ⟨fun _ => {}, 0, 0, 0⟩
  radioSend : Bool := false
  deliveryTimeoutMs : UInt64 := kDefaultDeliveryTimeoutMs
  telemetryRadioSend : Bool := false
  pending : EncodedFrame := {}
  pendingSinceMs : UInt64 := 0
  awaitingDelivery : Bool := false
  deliveryEvent : DeliveryEvent := .none
  stats : Stats := {}
  history : History := {}

/-- What the radio does with one frame: whether it takes it, and a callback it
may raise before it returns. -/
structure Radio where
  taken : Bool
  callback : Option Bool := none

namespace Scheduler

def configure (scheduler : Scheduler) (deliveryTimeoutMs : UInt64) : Scheduler :=
  { scheduler with
    radioSend := true
    deliveryTimeoutMs :=
      if deliveryTimeoutMs = 0 then kDefaultDeliveryTimeoutMs else deliveryTimeoutMs }

def configureTelemetry (scheduler : Scheduler) : Scheduler :=
  { scheduler with telemetryRadioSend := true }

def refuse (scheduler : Scheduler) : Scheduler :=
  { scheduler with
    stats := { scheduler.stats with dropped := scheduler.stats.dropped + 1 }
    history := { scheduler.history with
      refusedEnqueues := scheduler.history.refusedEnqueues + 1 } }

def refuseClass (scheduler : Scheduler) (priority : Priority) : Scheduler :=
  let counts := scheduler.stats.droppedByPriority
  { scheduler.refuse with
    stats := { scheduler.refuse.stats with
      droppedByPriority := Function.update counts priority (counts priority + 1) } }

/-- The frame goes over whatever its slot held before. -/
def store (scheduler : Scheduler) (priority : Priority) (data : List UInt8) : Scheduler :=
  let queue := scheduler.queues priority
  let frame := (queue.slots queue.write).copyFrom data
  let counts := scheduler.stats.queuedByPriority
  { scheduler with
    queues := Function.update scheduler.queues priority
      (queue.put (kQueueCapacity priority) frame)
    stats := { scheduler.stats with
      accepted := scheduler.stats.accepted + 1
      queuedByPriority := Function.update counts priority (counts priority + 1) }
    history := { scheduler.history with
      accepted := scheduler.history.accepted ++ [(priority, data)] } }

def enqueue (codec : FrameCodec) (scheduler : Scheduler) (data : List UInt8) : Bool × Scheduler :=
  if data.length < codec.minimumFrameSize ∨ codec.maxFrameSize < data.length then
    (false, scheduler.refuse)
  else
    match codec.decode data with
    | none => (false, scheduler.refuse)
    | some header =>
      let priority := classify header
      if kQueueCapacity priority ≤ (scheduler.queues priority).count then
        (false, scheduler.refuseClass priority)
      else (true, scheduler.store priority data)

def advanceQueue (scheduler : Scheduler) (priority : Priority) : Scheduler :=
  let queue := scheduler.queues priority
  { scheduler with
    queues := Function.update scheduler.queues priority
      (queue.advance (kQueueCapacity priority)) }

@[simp] theorem advanceQueue_stats (scheduler : Scheduler) (priority : Priority) :
    (scheduler.advanceQueue priority).stats = scheduler.stats := rfl

@[simp] theorem advanceQueue_history (scheduler : Scheduler) (priority : Priority) :
    (scheduler.advanceQueue priority).history = scheduler.history := rfl

@[simp] theorem advanceQueue_awaitingDelivery (scheduler : Scheduler) (priority : Priority) :
    (scheduler.advanceQueue priority).awaitingDelivery = scheduler.awaitingDelivery := rfl

def pop (scheduler : Scheduler) (priority : Priority) : Option (EncodedFrame × Scheduler) :=
  let queue := scheduler.queues priority
  if queue.count = 0 then none
  else some (queue.slots queue.read, scheduler.advanceQueue priority)

/-- The first class that has a frame. Telemetry has a lane of its own. -/
def popFirst (scheduler : Scheduler) :
    List Priority → Option (Priority × EncodedFrame × Scheduler)
  | [] => none
  | priority :: rest =>
    if priority = .telemetry then scheduler.popFirst rest
    else
      match scheduler.pop priority with
      | some (frame, popped) => some (priority, frame, popped)
      | none => scheduler.popFirst rest

/-- The wait for the frame in the slot ends. -/
def resolve (scheduler : Scheduler) (outcome : Outcome) : Scheduler :=
  { scheduler with
    awaitingDelivery := false
    stats := outcome.count scheduler.stats
    history := { scheduler.history with
      outcomes := scheduler.history.outcomes ++ [(scheduler.history.handedOver, outcome)] } }

def onDelivery (scheduler : Scheduler) (delivered : Bool) : Scheduler :=
  if scheduler.awaitingDelivery then
    { scheduler with deliveryEvent := if delivered then .success else .failure }
  else scheduler

/-- The radio's callback for one of the frames it was handed. -/
def report (scheduler : Scheduler) (frame : Nat) (delivered : Bool) : Scheduler :=
  { scheduler with history := { scheduler.history with
      reports := scheduler.history.reports ++ [(frame, delivered)] } }.onDelivery delivered

/-- Whether the slot is free for another frame. -/
def awaitDelivery (scheduler : Scheduler) (now : UInt64) : Bool × Scheduler :=
  if scheduler.awaitingDelivery then
    let taken := { scheduler with deliveryEvent := .none }
    match scheduler.deliveryEvent with
    | .success => (true, taken.resolve .delivered)
    | .failure => (true, taken.resolve .failed)
    | .none =>
      if scheduler.deliveryTimeoutMs ≤ now - scheduler.pendingSinceMs then
        (true, taken.resolve .timedOut)
      else (false, taken)
  else (true, scheduler)

/-- The slot is taken before the radio is entered, so that a callback raised
during the call is recorded for this frame. -/
def occupy (scheduler : Scheduler) (now : UInt64) (priority : Priority) (frame : EncodedFrame) :
    Scheduler :=
  { scheduler with
    pending := frame
    awaitingDelivery := true
    pendingSinceMs := now
    deliveryEvent := .none
    history := { scheduler.history with
      handed := scheduler.history.handed ++ [(priority, frame.data)]
      handedOver := scheduler.history.handedOver + 1 } }

def handOver (scheduler : Scheduler) (radio : Radio) : Bool × Scheduler :=
  let called := match radio.callback with
    | some delivered => scheduler.report scheduler.history.handedOver delivered
    | none => scheduler
  if radio.taken then (true, called) else (false, called.resolve .refused)

def pump (scheduler : Scheduler) (now : UInt64) (radio : Radio) : Bool × Scheduler :=
  match scheduler.awaitDelivery now with
  | (false, waiting) => (false, waiting)
  | (true, ready) =>
    if ready.radioSend then
      match ready.popFirst Priority.all with
      | some (priority, frame, popped) => (popped.occupy now priority frame).handOver radio
      | none => (false, ready)
    else (false, ready)

/-- One telemetry frame is with the radio, which took it or did not. -/
def countTelemetry (scheduler : Scheduler) (frame : EncodedFrame) (taken : Bool) : Scheduler :=
  let stats := scheduler.stats
  { scheduler with
    stats := if taken then { stats with telemetrySent := stats.telemetrySent + 1 }
      else { stats with telemetryDropped := stats.telemetryDropped + 1 }
    history := { scheduler.history with
      handed := scheduler.history.handed ++ [(.telemetry, frame.data)] } }

/-- A pass ends at the first frame the radio refuses, or with the queue. -/
def telemetryPass (taken : Nat → Bool) : Nat → Scheduler → Bool × Scheduler
  | 0, scheduler => (false, scheduler)
  | frames + 1, scheduler =>
    match scheduler.pop .telemetry with
    | none => (false, scheduler)
    | some (frame, popped) =>
      if taken 0 then
        (true, (telemetryPass (fun index => taken (index + 1)) frames
          (popped.countTelemetry frame true)).2)
      else (false, popped.countTelemetry frame false)

/-- A pass pops no more frames than were waiting. -/
def pumpTelemetry (scheduler : Scheduler) (taken : Nat → Bool) : Bool × Scheduler :=
  if scheduler.telemetryRadioSend then
    telemetryPass taken (scheduler.queues .telemetry).count scheduler
  else (false, scheduler)

def queued (scheduler : Scheduler) : Nat :=
  Priority.all.foldl (fun total priority => total + (scheduler.queues priority).count) 0

end Scheduler

inductive Event
  | configure (deliveryTimeoutMs : UInt64)
  | configureTelemetry
  | enqueue (data : List UInt8)
  | pump (now : UInt64) (radio : Radio)
  | pumpTelemetry (taken : Nat → Bool)
  /-- The radio reports on a frame by its number, which the callback cannot see. -/
  | onDelivery (frame : Nat) (delivered : Bool)

def step (codec : FrameCodec) : Machine Scheduler Event
  | scheduler, .configure deliveryTimeoutMs => some (scheduler.configure deliveryTimeoutMs)
  | scheduler, .configureTelemetry => some scheduler.configureTelemetry
  | scheduler, .enqueue data => some (scheduler.enqueue codec data).2
  | scheduler, .pump now radio => some (scheduler.pump now radio).2
  | scheduler, .pumpTelemetry taken => some (scheduler.pumpTelemetry taken).2
  | scheduler, .onDelivery frame delivered => some (scheduler.report frame delivered)

end BallyOS.Tx
