import BallyOS.Library.Calls
import BallyOS.Library.Run
import BallyOS.Transport.SendQueue

/-! The BLE server's outgoing half: `send` from any task, the notify pump
behind it, and the GAP events of the host task. A call moves one lock section
or one atomic access at a time, so tasks interleave wherever the code lets
them. What NimBLE answers (an mbuf or none, a notify code) is part of the event. -/
namespace BallyOS.Ble
open Library Transport

def sendQueueDepth : Nat := 16

def telemetryQueueCeiling : Nat := sendQueueDepth * 3 / 4

def notifyScratchSize : Nat := 512

/-- Where one call of `send` or `drain_send_queue` stands. -/
inductive Call
  | idle
  | enqueue (frame : Frame) (priority : FramePriority)
  | drain
  | claim
  | fill
  | notify (chunk : List UInt8)
  | release
deriving DecidableEq

/-- Past the exchange on `notify_in_flight_`: the call owns the pump. -/
def Call.Pumps : Call → Prop
  | fill | notify _ | release => True
  | _ => False

/-- Still before that exchange: the call is about to pump if nobody does. -/
def Call.WillPump : Call → Prop
  | drain | claim => True
  | _ => False

/-- The server, its callers, and what the connection has seen so far:
completions NimBLE still owes, frames admitted, bytes the stack accepted and
bytes taken from the queue by an attempt that failed. -/
structure World where
  connected : Bool
  notificationsEnabled : Bool
  attMtu : UInt16
  sendQueue : List QueuedFrame
  notifyInFlight : Bool
  calls : Nat → Call
  completions : Nat
  admitted : List (List UInt8)
  handed : List UInt8
  lost : List UInt8

def World.initial : World where
  connected := false
  notificationsEnabled := false
  attMtu := 23
  sendQueue := []
  notifyInFlight := false
  calls := fun _ => .idle
  completions := 0
  admitted := []
  handed := []
  lost := []

inductive Event
  | send (task : Nat) (data : List UInt8) (priority : FramePriority)
  | enqueue (task : Nat) (copied : Bool)
  | drain (task : Nat)
  | claim (task : Nat)
  | fill (task : Nat) (mbuf : Bool)
  | notify (task : Nat) (accepted : Bool)
  | release (task : Nat)
  | notifyTx (task : Nat)
  | connect
  | disconnect
  | subscribe (enabled : Bool)
  | mtu (value : UInt16)
deriving DecidableEq

/-- The task an event moves; connection events move none. -/
def Event.task : Event → Option Nat
  | send task .. | enqueue task _ | drain task | claim task | fill task _ | notify task _
  | release task | notifyTx task => some task
  | connect | disconnect | subscribe _ | mtu _ => none

namespace World

def hasClient (world : World) : Bool := world.connected && world.notificationsEnabled

/-- ATT_MTU minus the notification header, within the scratch buffer. -/
def chunkCapacity (world : World) : Nat :=
  min (if world.attMtu.toNat > 3 then world.attMtu.toNat - 3 else 20) notifyScratchSize

def goto (world : World) (task : Nat) (call : Call) : World :=
  { world with calls := Function.update world.calls task call }

/-- `reset_send_queue`, and a fresh account of what this connection sends. -/
def resetSendQueue (world : World) : World :=
  { world with sendQueue := [], notifyInFlight := false }

end World

def send (world : World) (task : Nat) (data : List UInt8) (priority : FramePriority) :
    Option World :=
  if world.calls task = .idle then
    if usable : data ≠ [] ∧ world.hasClient then
      some (world.goto task (.enqueue ⟨data, usable.1⟩ priority))
    else some world
  else none

/-- The section of `send` under the mutex: admission, the copy, the new slot. -/
def enqueue (world : World) (task : Nat) (copied : Bool) : Option World :=
  match world.calls task with
  | .enqueue frame priority =>
    if admits priority world.sendQueue.length sendQueueDepth telemetryQueueCeiling && copied then
      some ({ world with
        sendQueue := world.sendQueue ++ [QueuedFrame.start frame]
        admitted := world.admitted ++ [frame.val] }.goto task .drain)
    else some (world.goto task .idle)
  | _ => none

def drain (world : World) (task : Nat) : Option World :=
  match world.calls task with
  | .drain => some (world.goto task (if world.hasClient then .claim else .idle))
  | _ => none

/-- `notify_in_flight_.exchange(true)`. -/
def claim (world : World) (task : Nat) : Option World :=
  match world.calls task with
  | .claim =>
    if world.notifyInFlight then some (world.goto task .idle)
    else some ({ world with notifyInFlight := true }.goto task .fill)
  | _ => none

/-- The section of the pump under the mutex. The chunk leaves the queue here,
before the mbuf is known to exist. -/
def fill (world : World) (task : Nat) (mbuf : Bool) : Option World :=
  match world.calls task with
  | .fill =>
    if world.sendQueue = [] then some (world.goto task .release)
    else
      let (chunk, left) := fillChunk world.chunkCapacity world.sendQueue
      if mbuf then some ({ world with sendQueue := left }.goto task (.notify chunk))
      else some ({ world with sendQueue := left, lost := world.lost ++ chunk }.goto task .release)
  | _ => none

/-- `ble_gatts_notify_custom`. An accepted chunk is owed one NOTIFY_TX, a
refused one none. -/
def notify (world : World) (task : Nat) (accepted : Bool) : Option World :=
  match world.calls task with
  | .notify chunk =>
    if accepted then
      if world.connected then
        some ({ world with
          handed := world.handed ++ chunk
          completions := world.completions + 1 }.goto task .idle)
      else none
    else some ({ world with lost := world.lost ++ chunk }.goto task .release)
  | _ => none

def release (world : World) (task : Nat) : Option World :=
  match world.calls task with
  | .release => some ({ world with notifyInFlight := false }.goto task .idle)
  | _ => none

/-- The NOTIFY_TX event: clear the latch, then pump again. -/
def notifyTx (world : World) (task : Nat) : Option World :=
  if world.calls task = .idle ∧ 0 < world.completions then
    some ({ world with
      completions := world.completions - 1
      notifyInFlight := false }.goto task .drain)
  else none

/-- A connection starts only while none is up, and its account starts empty. -/
def connect (world : World) : Option World :=
  if world.connected then none
  else some { world.resetSendQueue with
    connected := true
    notificationsEnabled := false
    completions := 0
    admitted := []
    handed := []
    lost := [] }

def disconnect (world : World) : Option World :=
  if world.connected then
    some { world.resetSendQueue with
      connected := false
      notificationsEnabled := false
      attMtu := 23
      completions := 0 }
  else none

def step : Machine World Event := fun world event =>
  match event with
  | .send task data priority => send world task data priority
  | .enqueue task copied => enqueue world task copied
  | .drain task => drain world task
  | .claim task => claim world task
  | .fill task mbuf => fill world task mbuf
  | .notify task accepted => notify world task accepted
  | .release task => release world task
  | .notifyTx task => notifyTx world task
  | .connect => connect world
  | .disconnect => disconnect world
  | .subscribe enabled =>
    if world.connected then some { world with notificationsEnabled := enabled } else none
  | .mtu value => if world.connected then some { world with attMtu := value } else none

/-- Every move of the machine: what it needed and what it left. -/
inductive Moved (world : World) : Event → World → Prop
  | sendRefused : world.calls task = .idle →
      Moved world (.send task data priority) world
  | sendAccepted : world.calls task = .idle →
      Moved world (.send task data priority) (world.goto task (.enqueue frame priority))
  | enqueued : world.calls task = .enqueue frame priority →
      Moved world (.enqueue task copied) ({ world with
        sendQueue := world.sendQueue ++ [QueuedFrame.start frame]
        admitted := world.admitted ++ [frame.val] }.goto task .drain)
  | enqueueRefused : world.calls task = .enqueue frame priority →
      Moved world (.enqueue task copied) (world.goto task .idle)
  | drainClient : world.calls task = .drain → world.hasClient = true →
      Moved world (.drain task) (world.goto task .claim)
  | drainAlone : world.calls task = .drain → world.hasClient = false →
      Moved world (.drain task) (world.goto task .idle)
  | claimTaken : world.calls task = .claim → world.notifyInFlight = true →
      Moved world (.claim task) (world.goto task .idle)
  | claimed : world.calls task = .claim → world.notifyInFlight = false →
      Moved world (.claim task) ({ world with notifyInFlight := true }.goto task .fill)
  | fillEmpty : world.calls task = .fill → world.sendQueue = [] →
      Moved world (.fill task mbuf) (world.goto task .release)
  | filled : world.calls task = .fill →
      fillChunk world.chunkCapacity world.sendQueue = (chunk, left) →
      Moved world (.fill task true) ({ world with sendQueue := left }.goto task (.notify chunk))
  | fillFailed : world.calls task = .fill →
      fillChunk world.chunkCapacity world.sendQueue = (chunk, left) →
      Moved world (.fill task false)
        ({ world with sendQueue := left, lost := world.lost ++ chunk }.goto task .release)
  | notified : world.calls task = .notify chunk → world.connected = true →
      Moved world (.notify task true) ({ world with
        handed := world.handed ++ chunk
        completions := world.completions + 1 }.goto task .idle)
  | notifyRefused : world.calls task = .notify chunk →
      Moved world (.notify task false)
        ({ world with lost := world.lost ++ chunk }.goto task .release)
  | released : world.calls task = .release →
      Moved world (.release task) ({ world with notifyInFlight := false }.goto task .idle)
  | completed : world.calls task = .idle → 0 < world.completions →
      Moved world (.notifyTx task) ({ world with
        completions := world.completions - 1
        notifyInFlight := false }.goto task .drain)
  | connected : Moved world .connect { world.resetSendQueue with
        connected := true
        notificationsEnabled := false
        completions := 0
        admitted := []
        handed := []
        lost := [] }
  | disconnected : Moved world .disconnect { world.resetSendQueue with
        connected := false
        notificationsEnabled := false
        attMtu := 23
        completions := 0 }
  | subscribed : Moved world (.subscribe enabled) { world with notificationsEnabled := enabled }
  | mtuChanged : Moved world (.mtu value) { world with attMtu := value }

theorem moved_of_step (stepped : step world event = some next) : Moved world event next := by
  cases event with
  | send task data priority =>
    simp only [step, send] at stepped
    split at stepped
    · split at stepped <;> cases stepped
      · exact .sendAccepted ‹_›
      · exact .sendRefused ‹_›
    · cases stepped
  | enqueue task copied =>
    simp only [step, enqueue] at stepped
    split at stepped
    · split at stepped <;> cases stepped
      · exact .enqueued ‹_›
      · exact .enqueueRefused ‹_›
    · cases stepped
  | drain task =>
    simp only [step, drain] at stepped
    split at stepped <;> cases stepped
    cases client : world.hasClient with
    | false => exact .drainAlone ‹_› client
    | true => exact .drainClient ‹_› client
  | claim task =>
    simp only [step, claim] at stepped
    split at stepped
    · split at stepped <;> cases stepped
      · exact .claimTaken ‹_› ‹_›
      · exact .claimed ‹_› (Bool.not_eq_true _ ▸ ‹_›)
    · cases stepped
  | fill task mbuf =>
    simp only [step, fill] at stepped
    split at stepped
    · split at stepped
      · cases stepped
        exact .fillEmpty ‹_› ‹_›
      · cases mbuf <;> cases stepped
        · exact .fillFailed ‹_› rfl
        · exact .filled ‹_› rfl
    · cases stepped
  | notify task accepted =>
    simp only [step, notify] at stepped
    split at stepped
    · cases accepted with
      | false =>
        cases stepped
        exact .notifyRefused ‹_›
      | true =>
        simp only [if_true] at stepped
        split at stepped <;> cases stepped
        exact .notified ‹_› ‹_›
    · cases stepped
  | release task =>
    simp only [step, release] at stepped
    split at stepped <;> cases stepped
    exact .released ‹_›
  | notifyTx task =>
    simp only [step, notifyTx] at stepped
    split at stepped <;> cases stepped
    rename_i enabled
    exact .completed enabled.1 enabled.2
  | connect =>
    simp only [step, connect] at stepped
    split at stepped <;> cases stepped
    exact .connected
  | disconnect =>
    simp only [step, disconnect] at stepped
    split at stepped <;> cases stepped
    exact .disconnected
  | subscribe enabled =>
    simp only [step] at stepped
    split at stepped <;> cases stepped
    exact .subscribed
  | mtu value =>
    simp only [step] at stepped
    split at stepped <;> cases stepped
    exact .mtuChanged

/-- An event leaves every task but its own where it was. -/
theorem step_other_task (other : event.task ≠ some task) (stepped : step world event = some next) :
    next.calls task = world.calls task := by
  cases moved_of_step stepped with
  | sendRefused | connected | disconnected | subscribed | mtuChanged => rfl
  | _ =>
    have different : task ≠ _ := fun same => other (congrArg some same.symm)
    exact Function.update_of_ne different ..

theorem run_other_task (others : ∀ event ∈ events, event.task ≠ some task)
    (ran : run step world events = some last) : last.calls task = world.calls task := by
  induction events generalizing world with
  | nil =>
    cases ran
    rfl
  | cons event rest ih =>
    obtain ⟨next, stepped, after⟩ := run_cons.mp ran
    rw [ih (fun later member => others later (List.mem_cons_of_mem _ member)) after]
    exact step_other_task (others event List.mem_cons_self) stepped

end BallyOS.Ble
