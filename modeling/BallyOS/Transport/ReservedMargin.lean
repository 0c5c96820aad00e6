import BallyOS.Ble.Server
import BallyOS.Tcp.Server
import BallyOS.Transport.Margin

/-! The reserved margin on the two servers that share the admission rule, with any depth and
any ceiling in the place of their own. A frame is also refused for want of a client, of the
mutex or of memory, whatever the queue holds; nothing else is. -/
namespace BallyOS
open Library Transport

/-! ### TCP -/

namespace Tcp

/-- `send` with any depth and ceiling. -/
def Server.sendWithin (depth ceiling : Nat) (server : Server) (frame : Frame)
    (priority : FramePriority) (mutexTaken copied : Bool) : Bool × Server :=
  if !mutexTaken then (false, server)
  else if server.clientFd.isSome ∧ admits priority server.sendQueue.length depth ceiling ∧
      copied then
    (true, { server with sendQueue := server.sendQueue ++ [.start frame] })
  else (false, server)

def stepWithin (depth ceiling : Nat) : Machine Server Event
  | server, .send frame priority mutexTaken copied =>
    match server.sendWithin depth ceiling frame priority mutexTaken copied with
    | (true, after) =>
      some { after with ledger := after.ledger.enter after.sessions frame.val }
    | (false, after) => some after
  | server, event => step server event

private theorem stepWithin_own : stepWithin kSendQueueDepth kTelemetryQueueCeiling = step := by
  funext server event
  cases event <;> rfl

/-- The frame that a `send` queues. -/
def entering (depth ceiling : Nat) (server : Server) : Event → Option Sent
  | .send frame priority mutexTaken copied =>
    if (server.sendWithin depth ceiling frame priority mutexTaken copied).1 then
      some ⟨frame.val, priority⟩
    else none
  | _ => none

def carrier (depth ceiling : Nat) : Carrier Server Event :=
  ⟨stepWithin depth ceiling, Server.sendQueue, entering depth ceiling⟩

/-- A frame that is not telemetry is refused, with a client there, the mutex taken and the
copy made. -/
def Server.RefusesNormal (depth ceiling : Nat) (server : Server) : Prop :=
  ∃ frame, server.clientFd.isSome ∧
    (server.sendWithin depth ceiling frame .normal true true).1 = false

private theorem sendWithin_cases (depth ceiling : Nat) (server : Server) (frame : Frame)
    (priority : FramePriority) (mutexTaken copied : Bool) :
    server.sendWithin depth ceiling frame priority mutexTaken copied = (false, server) ∨
      admits priority server.sendQueue.length depth ceiling = true ∧
        server.sendWithin depth ceiling frame priority mutexTaken copied =
          (true, { server with sendQueue := server.sendQueue ++ [.start frame] }) := by
  unfold Server.sendWithin
  split
  · exact Or.inl rfl
  split
  · rename_i queued
    exact Or.inr ⟨queued.2.1, rfl⟩
  · exact Or.inl rfl

private theorem closeClient_contents (server : Server) :
    contents server.closeClient.sendQueue <:+ contents server.sendQueue := by
  unfold Server.closeClient
  cases server.clientFd with
  | none => exact List.suffix_rfl
  | some fd => exact List.nil_suffix

private theorem drainSendQueue_contents (server : Server) (answers : Nat → SendAnswer)
    (mutexTaken : Bool) :
    contents (server.drainSendQueue answers mutexTaken).sendQueue <:+
      contents server.sendQueue := by
  unfold Server.drainSendQueue
  split
  · have drained := contents_drain (fun index => (answers index).attempt) server.sendQueue
    dsimp only
    split
    · exact (closeClient_contents _).trans drained
    · exact drained
  · exact List.suffix_rfl

private theorem carrier_queues (depth ceiling : Nat) : (carrier depth ceiling).Queues depth ceiling
    where
  admitted := by
    intro server event sent enters
    cases event with
    | send frame priority mutexTaken copied =>
      simp only [carrier, entering, Option.ite_none_right_eq_some, Option.some.injEq] at enters
      obtain ⟨queued, rfl⟩ := enters
      rcases sendWithin_cases depth ceiling server frame priority mutexTaken copied with
        refused | ⟨admitted, _⟩
      · simp [refused] at queued
      · exact admitted
    | _ => cases enters
  fifo := by
    intro server event next stepped
    simp only [carrier] at stepped ⊢
    cases event with
    | send frame priority mutexTaken copied =>
      rcases sendWithin_cases depth ceiling server frame priority mutexTaken copied with
        refused | ⟨_, queued⟩
      · simp only [stepWithin, refused, Option.some.injEq] at stepped
        simp [← stepped, entering, refused]
      · simp only [stepWithin, queued, Option.some.injEq] at stepped
        simp [← stepped, entering, queued, contents, QueuedFrame.start]
    | start =>
      cases stepped
      simp only [entering, Option.toList_none, List.map_nil, List.append_nil, Server.start]
      split
      · exact List.suffix_rfl
      · exact List.nil_suffix
    | stop =>
      cases stepped
      simp only [entering, Option.toList_none, List.map_nil, List.append_nil, Server.stop]
      split
      · exact List.nil_suffix
      · exact List.suffix_rfl
    | accept accepted =>
      simp only [stepWithin, step, Option.ite_none_right_eq_some, Option.some.injEq] at stepped
      obtain ⟨_, rfl⟩ := stepped
      have same : (server.accept accepted).sendQueue = server.sendQueue := by
        unfold Server.accept
        split
        · rfl
        split <;> rfl
      simp [entering, same]
    | received =>
      simp only [stepWithin, step, Option.ite_none_right_eq_some, Option.some.injEq] at stepped
      obtain ⟨_, rfl⟩ := stepped
      simpa [entering] using closeClient_contents server
    | drain answers mutexTaken =>
      simp only [stepWithin, step, Option.ite_none_right_eq_some, Option.some.injEq] at stepped
      obtain ⟨_, rfl⟩ := stepped
      simpa [entering] using drainSendQueue_contents server answers mutexTaken
    | closeActiveClient =>
      cases stepped
      simpa [entering] using closeClient_contents server
    | closePending =>
      cases stepped
      simp [entering, Server.closePending]

private theorem unadmitted_of_refuses {depth ceiling : Nat} {server : Server}
    (refuses : server.RefusesNormal depth ceiling) :
    admits .normal server.sendQueue.length depth ceiling = false := by
  obtain ⟨frame, client, refused⟩ := refuses
  cases admitted : admits .normal server.sendQueue.length depth ceiling with
  | false => rfl
  | true => simp [Server.sendWithin, client, admitted] at refused

end Tcp

/-! ### BLE -/

namespace Ble

/-- The section of `send` under the mutex with any depth and ceiling. -/
def enqueueWithin (depth ceiling : Nat) (world : World) (task : Nat) (copied : Bool) :
    Option World :=
  match world.calls task with
  | .enqueue frame priority =>
    if admits priority world.sendQueue.length depth ceiling && copied then
      some ({ world with
        sendQueue := world.sendQueue ++ [QueuedFrame.start frame]
        admitted := world.admitted ++ [frame.val] }.goto task .drain)
    else some (world.goto task .idle)
  | _ => none

def stepWithin (depth ceiling : Nat) : Machine World Event
  | world, .enqueue task copied => enqueueWithin depth ceiling world task copied
  | world, event => step world event

private theorem stepWithin_own : stepWithin sendQueueDepth telemetryQueueCeiling = step := by
  funext world event
  cases event <;> rfl

/-- The frame that the section of `send` queues. -/
def entering (depth ceiling : Nat) (world : World) : Event → Option Sent
  | .enqueue task copied =>
    match world.calls task with
    | .enqueue frame priority =>
      if admits priority world.sendQueue.length depth ceiling && copied then
        some ⟨frame.val, priority⟩
      else none
    | _ => none
  | _ => none

def carrier (depth ceiling : Nat) : Carrier World Event :=
  ⟨stepWithin depth ceiling, World.sendQueue, entering depth ceiling⟩

/-- A `send` of a frame that is not telemetry, begun with a client there, ends without its
frame, with the copy made. -/
def World.RefusesNormal (depth ceiling : Nat) (world : World) : Prop :=
  ∃ task frame next, world.calls task = .enqueue frame .normal ∧
    stepWithin depth ceiling world (.enqueue task true) = some next ∧ next.calls task = .idle

/-- Nothing but that section puts a frame into the queue. -/
theorem step_contents {world next : World} {event : Event}
    (other : ∀ task copied, event ≠ .enqueue task copied)
    (stepped : step world event = some next) :
    contents next.sendQueue <:+ contents world.sendQueue := by
  cases moved_of_step stepped with
  | enqueued | enqueueRefused => exact absurd rfl (other _ _)
  | filled _ filled | fillFailed _ filled =>
    have left := contents_fillChunk world.chunkCapacity world.sendQueue
    rwa [filled] at left
  | connected | disconnected => exact List.nil_suffix
  | _ => exact List.suffix_rfl

private theorem carrier_queues (depth ceiling : Nat) : (carrier depth ceiling).Queues depth ceiling
    where
  admitted := by
    intro world event sent enters
    cases event with
    | enqueue task copied =>
      simp only [carrier, entering] at enters ⊢
      split at enters
      · rename_i calling
        simp only [Option.ite_none_right_eq_some, Bool.and_eq_true, Option.some.injEq] at enters
        obtain ⟨⟨admitted, _⟩, rfl⟩ := enters
        exact admitted
      · cases enters
    | _ => cases enters
  fifo := by
    intro world event next stepped
    simp only [carrier] at stepped ⊢
    cases event with
    | enqueue task copied =>
      simp only [stepWithin, enqueueWithin] at stepped
      split at stepped
      · rename_i frame priority calling
        split at stepped <;> rename_i admitted <;> cases stepped
        · simp [entering, calling, admitted, contents, QueuedFrame.start, World.goto]
        · simp [entering, calling, admitted, World.goto]
      · cases stepped
    | _ =>
      simp only [entering, Option.toList_none, List.map_nil, List.append_nil]
      simp only [stepWithin] at stepped
      exact step_contents (by simp) stepped

private theorem unadmitted_of_refuses {depth ceiling : Nat} {world : World}
    (refuses : world.RefusesNormal depth ceiling) :
    admits .normal world.sendQueue.length depth ceiling = false := by
  obtain ⟨task, frame, next, calling, stepped, refused⟩ := refuses
  simp only [stepWithin, enqueueWithin, calling, Bool.and_true] at stepped
  cases admitted : admits .normal world.sendQueue.length depth ceiling with
  | false => rfl
  | true =>
    simp only [admitted, if_true, Option.some.injEq] at stepped
    simp [← stepped, World.goto] at refused

end Ble

/-- On either server the queue never holds more than its depth nor more telemetry than the
ceiling, and a frame that is not telemetry finds room unless as many of its kind as the
margin holds fill it. -/
theorem Transport.normal_margin_reserved (depth ceiling : Nat) :
    (∀ events server sent,
      run (Tcp.carrier depth ceiling).followed ({}, []) events = some (server, sent) →
      Reserved depth ceiling server.sendQueue sent (server.RefusesNormal depth ceiling)) ∧
    ∀ events world sent,
      run (Ble.carrier depth ceiling).followed (Ble.World.initial, []) events =
        some (world, sent) →
      Reserved depth ceiling world.sendQueue sent (world.RefusesNormal depth ceiling) := by
  constructor
  · intro events server sent ran
    exact (Carrier.bounded_run (Tcp.carrier_queues depth ceiling) rfl ran).reserved
      Tcp.unadmitted_of_refuses
  · intro events world sent ran
    exact (Carrier.bounded_run (Ble.carrier_queues depth ceiling) rfl ran).reserved
      Ble.unadmitted_of_refuses

/-- A frame that is not telemetry is refused by an empty queue whose mutex its sender does
not get in time, and one whose copy cannot be made. -/
theorem Transport.normal_refused_by_empty_queue :
    ∃ server, run Tcp.step {} [.start, .accept 3] = some server ∧ server.sendQueue = [] ∧
      (server.send ⟨[1], by simp⟩ .normal false true).1 = false ∧
      (server.send ⟨[1], by simp⟩ .normal true false).1 = false :=
  ⟨_, rfl, rfl, rfl, rfl⟩

end BallyOS
