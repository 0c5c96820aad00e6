import BallyOS.Library.Run
import BallyOS.Library.SessionLedger
import BallyOS.Transport.SendQueue

/-! The TCP server. One client is active at a time and its frames leave through
one queue, which the server's task drains into a socket that never blocks. A
call keeps the queue's mutex from its first look at the queue to its last, so
calls happen one after another; a caller that waits too long for it gives up. -/
namespace BallyOS.Tcp
open Library Transport

def kSendQueueDepth : Nat := 16
def kTelemetryQueueCeiling : Nat := kSendQueueDepth * 3 / 4

inductive Errno
  | eagain
  | ewouldblock
  | enomem
  | enobufs
  | other (code : Nat)
deriving Repr, DecidableEq

/-- The errors after which the same socket may take bytes again. -/
def Errno.transient : Errno → Bool
  | eagain | ewouldblock | enomem | enobufs => true
  | other _ => false

/-- What the socket answers a write: the bytes it took, or an error. -/
inductive SendAnswer
  | written (count : Nat)
  | error (errno : Errno)
deriving Repr, DecidableEq

/-- A write that takes nothing and names no error is a broken link too. -/
def SendAnswer.attempt : SendAnswer → Attempt
  | written 0 => .broken
  | written (count + 1) => .wrote (count + 1)
  | error errno => if errno.transient then .later else .broken

structure Server where
  running : Bool := false
  clientFd : Option Nat := none
  pendingFd : Option Nat := none
  sendQueue : List QueuedFrame := []
  /-- How many clients became active so far. The last one's number. -/
  sessions : Nat := 0
  ledger : SessionLedger UInt8 := {}

namespace Server

def resetSendQueue (server : Server) : Server := { server with sendQueue := [] }

/-- A caller that misses the mutex empties the queue without it. -/
def closeClient (server : Server) : Server :=
  match server.clientFd with
  | some _ => { server with clientFd := none }.resetSendQueue
  | none => server

def closePending (server : Server) : Server := { server with pendingFd := none }

def start (server : Server) : Server :=
  if server.running then server
  else { server with running := true, sendQueue := [] }

def stop (server : Server) : Server :=
  if server.running then
    { server with running := false }.closeClient.closePending.resetSendQueue
  else server

/-- Whether the frame was queued, and the server after. -/
def send (server : Server) (frame : Frame) (priority : FramePriority)
    (mutexTaken copied : Bool) : Bool × Server :=
  if !mutexTaken then (false, server)
  else if server.clientFd.isSome ∧
      admits priority server.sendQueue.length kSendQueueDepth kTelemetryQueueCeiling ∧ copied then
    (true, { server with sendQueue := server.sendQueue ++ [.start frame] })
  else (false, server)

/-- A connection that finds a client waits in the one pending place, or is dropped. -/
def accept (server : Server) (accepted : Nat) : Server :=
  match server.clientFd with
  | none => { server with clientFd := some accepted, sessions := server.sessions + 1 }
  | some _ =>
    match server.pendingFd with
    | none => { server with pendingFd := some accepted }
    | some _ => server

def drainSendQueue (server : Server) (answers : Nat → SendAnswer) (mutexTaken : Bool) : Server :=
  match mutexTaken, server.clientFd with
  | true, some _ =>
    let drained := drain (fun index => (answers index).attempt) server.sendQueue
    let after := { server with
      sendQueue := drained.left
      ledger := server.ledger.write server.sessions drained.written }
    if drained.broken then after.closeClient else after
  | _, _ => server

end Server

inductive Event
  | start
  | stop
  | send (frame : Frame) (priority : FramePriority) (mutexTaken copied : Bool)
  | accept (accepted : Nat)
  /-- `recv` on the client's socket gave no bytes. -/
  | received
  | drain (answers : Nat → SendAnswer) (mutexTaken : Bool)
  | closeActiveClient
  | closePending

/-- The server's own task moves only while the server runs. -/
def step : Machine Server Event
  | server, .start => some server.start
  | server, .stop => some server.stop
  | server, .send frame priority mutexTaken copied =>
    match server.send frame priority mutexTaken copied with
    | (true, after) =>
      some { after with ledger := after.ledger.enter after.sessions frame.val }
    | (false, after) => some after
  | server, .accept accepted => if server.running then some (server.accept accepted) else none
  | server, .received => if server.running then some server.closeClient else none
  | server, .drain answers mutexTaken =>
    if server.running then some (server.drainSendQueue answers mutexTaken) else none
  | server, .closeActiveClient => some server.closeClient
  | server, .closePending => some server.closePending

/-- A client's bytes are all accounted for; without a client nothing waits. -/
structure Sound (server : Server) : Prop where
  serving : server.clientFd.isSome →
    server.ledger.Balanced server.sessions (pending server.sendQueue)
  idle : server.clientFd = none → server.sendQueue = [] ∧ server.ledger.Settled server.sessions

/-- A server that does not run has no client. -/
def Quiet (server : Server) : Prop := server.running = false → server.clientFd = none

theorem Sound.settled (sound : Sound server) : server.ledger.Settled server.sessions := by
  cases client : server.clientFd with
  | none => exact (sound.idle client).2
  | some fd => exact (sound.serving (by simp [client])).toSettled

private theorem sound_of_idle {server : Server} (away : server.clientFd = none)
    (empty : server.sendQueue = []) (settled : server.ledger.Settled server.sessions) :
    Sound server :=
  ⟨fun present => by simp [away] at present, fun _ => ⟨empty, settled⟩⟩

private theorem sound_of_serving {server : Server} (here : server.clientFd.isSome)
    (balanced : server.ledger.Balanced server.sessions (pending server.sendQueue)) :
    Sound server :=
  ⟨fun _ => balanced, fun away => by simp [away] at here⟩

/-- Closing empties the queue whatever a frame had left to send. -/
theorem sound_closeClient {server : Server} (settled : server.ledger.Settled server.sessions)
    (idle : server.clientFd = none → server.sendQueue = []) : Sound server.closeClient := by
  unfold Server.closeClient
  cases client : server.clientFd with
  | none => exact sound_of_idle client (idle client) settled
  | some fd => exact sound_of_idle rfl rfl settled

/-- A frame is queued behind a present client's others, or nothing changes. -/
theorem send_cases (server : Server) (frame : Frame) (priority : FramePriority)
    (mutexTaken copied : Bool) :
    server.send frame priority mutexTaken copied = (false, server) ∨
      server.clientFd.isSome ∧ server.send frame priority mutexTaken copied =
        (true, { server with sendQueue := server.sendQueue ++ [.start frame] }) := by
  unfold Server.send
  split
  · exact Or.inl rfl
  split
  · rename_i admitted
    exact Or.inr ⟨admitted.1, rfl⟩
  · exact Or.inl rfl

private theorem sound_accept (sound : Sound server) : Sound (server.accept accepted) := by
  unfold Server.accept
  cases client : server.clientFd with
  | none =>
    obtain ⟨empty, settled⟩ := sound.idle client
    apply sound_of_serving rfl
    simpa [empty] using settled.opened
  | some fd =>
    dsimp only
    split
    · exact sound_of_serving rfl (sound.serving (by simp [client]))
    · exact sound

/-- However the socket cuts the writes, the pass only moves the stream's head. -/
theorem sound_drain (sound : Sound server) :
    Sound (server.drainSendQueue answers mutexTaken) := by
  unfold Server.drainSendQueue
  split
  · rename_i fd client
    have balanced := sound.serving (by simp [client])
    rw [← drain_keeps_stream fun index => (answers index).attempt] at balanced
    have written := balanced.writing
    dsimp only
    split
    · exact sound_closeClient written.toSettled fun away => by simp [client] at away
    · exact sound_of_serving (by simp [client]) written
  · exact sound

private theorem closeClient_clientFd (server : Server) : server.closeClient.clientFd = none := by
  unfold Server.closeClient
  cases client : server.clientFd with
  | none => exact client
  | some fd => rfl

@[simp] theorem closeClient_running (server : Server) :
    server.closeClient.running = server.running := by
  unfold Server.closeClient
  cases server.clientFd <;> rfl

private theorem sound_stop (sound : Sound server) : Sound server.stop := by
  unfold Server.stop
  split
  · have closed : Sound { server with running := false }.closeClient :=
      sound_closeClient sound.settled fun away => (sound.idle away).1
    exact sound_of_idle (closeClient_clientFd _) rfl closed.settled
  · exact sound

private theorem quiet_step (quiet : Quiet server) (stepped : step server event = some next) :
    Quiet next := by
  cases event with
  | start =>
    cases stepped
    unfold Server.start
    split
    · exact quiet
    · exact fun asleep => absurd asleep (by simp)
  | stop =>
    cases stepped
    unfold Server.stop
    split
    · exact fun _ => closeClient_clientFd _
    · exact quiet
  | send frame priority mutexTaken copied =>
    rcases send_cases server frame priority mutexTaken copied with refused | ⟨client, queued⟩
    · simp only [step, refused, Option.some.injEq] at stepped
      rwa [← stepped]
    · simp only [step, queued, Option.some.injEq] at stepped
      rw [← stepped]
      exact quiet
  | accept accepted =>
    simp only [step, Option.ite_none_right_eq_some, Option.some.injEq] at stepped
    obtain ⟨awake, rfl⟩ := stepped
    intro asleep
    unfold Server.accept at asleep
    split at asleep
    · simp [awake] at asleep
    split at asleep
    · simp [awake] at asleep
    · simp [awake] at asleep
  | received =>
    simp only [step, Option.ite_none_right_eq_some, Option.some.injEq] at stepped
    rw [← stepped.2]
    exact fun _ => closeClient_clientFd server
  | drain answers mutexTaken =>
    simp only [step, Option.ite_none_right_eq_some, Option.some.injEq] at stepped
    obtain ⟨awake, rfl⟩ := stepped
    intro asleep
    unfold Server.drainSendQueue at asleep
    split at asleep
    · dsimp only at asleep
      split at asleep
      · simp [awake] at asleep
      · simp [awake] at asleep
    · simp [awake] at asleep
  | closeActiveClient =>
    cases stepped
    exact fun _ => closeClient_clientFd server
  | closePending =>
    cases stepped
    exact quiet

private theorem sound_step (sound : Sound server) (quiet : Quiet server)
    (stepped : step server event = some next) : Sound next := by
  have closed : Sound server.closeClient :=
    sound_closeClient sound.settled fun away => (sound.idle away).1
  cases event with
  | start =>
    cases stepped
    unfold Server.start
    split
    · exact sound
    · rename_i asleep
      exact sound_of_idle (quiet (by simpa using asleep)) rfl sound.settled
  | stop =>
    cases stepped
    exact sound_stop sound
  | send frame priority mutexTaken copied =>
    rcases send_cases server frame priority mutexTaken copied with refused | ⟨client, queued⟩
    · simp only [step, refused, Option.some.injEq] at stepped
      rwa [← stepped]
    · simp only [step, queued, Option.some.injEq] at stepped
      rw [← stepped]
      refine sound_of_serving client ?_
      simpa using (sound.serving client).admitting frame.val
  | accept accepted =>
    simp only [step, Option.ite_none_right_eq_some, Option.some.injEq] at stepped
    rw [← stepped.2]
    exact sound_accept sound
  | received =>
    simp only [step, Option.ite_none_right_eq_some, Option.some.injEq] at stepped
    rw [← stepped.2]
    exact closed
  | drain answers mutexTaken =>
    simp only [step, Option.ite_none_right_eq_some, Option.some.injEq] at stepped
    rw [← stepped.2]
    exact sound_drain sound
  | closeActiveClient =>
    cases stepped
    exact closed
  | closePending =>
    cases stepped
    exact ⟨sound.serving, sound.idle⟩

theorem sound_run (ran : run step {} events = some server) : Sound server := by
  have keeps : ∀ {before : Server} {event after}, Sound before ∧ Quiet before →
      step before event = some after → Sound after ∧ Quiet after :=
    fun held stepped => ⟨sound_step held.1 held.2 stepped, quiet_step held.2 stepped⟩
  have first : Sound {} := sound_of_idle rfl rfl SessionLedger.settled_empty
  exact (run_invariant keeps ⟨first, fun _ => rfl⟩ ran).1

end BallyOS.Tcp
