import BallyOS.Library.Run
import BallyOS.Library.SessionLedger
import BallyOS.Transport.SendQueue

/-! The USB serial server. Frames wait in the server's queue, then in the
device's FIFO until the host collects them; both hold bytes of one session, and
both are emptied when it closes. Calls happen one after another. -/
namespace BallyOS.Usb
open Library Transport

def kSendQueueDepth : Nat := 16
def kTelemetryQueueCeiling : Nat := kSendQueueDepth * 3 / 4

/-- The FIFO takes what it has room for, which may be nothing. -/
def attemptOfWritten : Nat → Attempt
  | 0 => .later
  | count + 1 => .wrote (count + 1)

structure Server where
  connected : Bool := false
  sendQueue : List QueuedFrame := []
  /-- Bytes the device holds for the host. -/
  fifo : List UInt8 := []
  /-- How many sessions were opened so far. The last one's number. -/
  sessions : Nat := 0
  ledger : SessionLedger UInt8 := {}

namespace Server

def resetSendQueue (server : Server) : Server := { server with sendQueue := [] }

def openSession (server : Server) : Server :=
  { server.resetSendQueue with connected := true, sessions := server.sessions + 1 }

def closeSession (server : Server) : Server :=
  { { server with connected := false }.resetSendQueue with fifo := [] }

/-- A host that raises DTR is a new client even if the last one never lowered it. -/
def handleLineState (server : Server) (dtr : Bool) : Server :=
  if dtr then
    (if server.connected then server.closeSession else server).openSession
  else if server.connected then server.closeSession
  else server

/-- Bytes from a host that never raised DTR open a session too. -/
def handleRx (server : Server) : Server :=
  if server.connected then server else server.openSession

def drainSendQueue (server : Server) (written : Nat → Nat) : Server :=
  if server.connected then
    let drained := drain (fun index => attemptOfWritten (written index)) server.sendQueue
    { server with sendQueue := drained.left, fifo := server.fifo ++ drained.written }
  else server

/-- Whether the frame was queued, and the server after. A queued frame is
pushed on at once. -/
def send (server : Server) (frame : Frame) (priority : FramePriority) (ready copied : Bool)
    (written : Nat → Nat) : Bool × Server :=
  if server.connected ∧ ready ∧
      admits priority server.sendQueue.length kSendQueueDepth kTelemetryQueueCeiling ∧ copied then
    let queued := { server with sendQueue := server.sendQueue ++ [QueuedFrame.start frame] }
    (true, queued.drainSendQueue written)
  else (false, server)

/-- The host collects bytes from the head of the FIFO. -/
def transmit (server : Server) (count : Nat) : Server :=
  { server with
    fifo := server.fifo.drop count
    ledger := server.ledger.write server.sessions (server.fifo.take count) }

end Server

inductive Event
  | lineState (dtr : Bool)
  | rx
  | send (frame : Frame) (priority : FramePriority) (ready copied : Bool) (written : Nat → Nat)
  /-- A transfer to the host completed and the FIFO has room again. -/
  | txComplete (written : Nat → Nat)
  | transmit (count : Nat)

def step : Machine Server Event
  | server, .lineState dtr => some (server.handleLineState dtr)
  | server, .rx => some server.handleRx
  | server, .send frame priority ready copied written =>
    match server.send frame priority ready copied written with
    | (true, after) =>
      some { after with ledger := after.ledger.enter after.sessions frame.val }
    | (false, after) => some after
  | server, .txComplete written => some (server.drainSendQueue written)
  | server, .transmit count => if server.fifo = [] then none else some (server.transmit count)

/-- A session's bytes are all accounted for; without one nothing waits. -/
structure Sound (server : Server) : Prop where
  serving : server.connected →
    server.ledger.Balanced server.sessions (server.fifo ++ pending server.sendQueue)
  idle : server.connected = false →
    server.sendQueue = [] ∧ server.fifo = [] ∧ server.ledger.Settled server.sessions

theorem Sound.settled (sound : Sound server) : server.ledger.Settled server.sessions := by
  cases up : server.connected with
  | false => exact (sound.idle up).2.2
  | true => exact (sound.serving up).toSettled

private theorem sound_of_serving {server : Server} (up : server.connected)
    (balanced : server.ledger.Balanced server.sessions
      (server.fifo ++ pending server.sendQueue)) : Sound server :=
  ⟨fun _ => balanced, fun down => by simp [down] at up⟩

private theorem sound_openSession (sound : Sound server) (down : server.connected = false) :
    Sound server.openSession := by
  obtain ⟨_, clear, settled⟩ := sound.idle down
  apply sound_of_serving rfl
  simpa [Server.openSession, Server.resetSendQueue, clear] using settled.opened

/-- Closing leaves nothing for the next host, in the queue or in the device. -/
theorem sound_closeSession (sound : Sound server) : Sound server.closeSession :=
  ⟨fun up => absurd up (by simp [Server.closeSession, Server.resetSendQueue]),
    fun _ => ⟨rfl, rfl, sound.settled⟩⟩

private theorem sound_lineState (sound : Sound server) : Sound (server.handleLineState dtr) := by
  unfold Server.handleLineState
  split
  · split
    · exact sound_openSession (sound_closeSession sound) rfl
    · rename_i down
      exact sound_openSession sound (by simpa using down)
  split
  · exact sound_closeSession sound
  · exact sound

/-- A pass moves bytes from the queue to the FIFO behind those already there. -/
theorem drainSendQueue_keeps_stream (server : Server) (written : Nat → Nat) :
    (server.drainSendQueue written).fifo ++ pending (server.drainSendQueue written).sendQueue =
      server.fifo ++ pending server.sendQueue := by
  unfold Server.drainSendQueue
  split
  · simp only [List.append_assoc, drain_keeps_stream]
  · rfl

@[simp] theorem drainSendQueue_connected (server : Server) (written : Nat → Nat) :
    (server.drainSendQueue written).connected = server.connected := by
  unfold Server.drainSendQueue
  split <;> rfl

@[simp] theorem drainSendQueue_sessions (server : Server) (written : Nat → Nat) :
    (server.drainSendQueue written).sessions = server.sessions := by
  unfold Server.drainSendQueue
  split <;> rfl

@[simp] theorem drainSendQueue_ledger (server : Server) (written : Nat → Nat) :
    (server.drainSendQueue written).ledger = server.ledger := by
  unfold Server.drainSendQueue
  split <;> rfl

/-- A frame is queued behind a session's others and pushed on, or nothing changes. -/
theorem send_cases (server : Server) (frame : Frame) (priority : FramePriority)
    (ready copied : Bool) (written : Nat → Nat) :
    server.send frame priority ready copied written = (false, server) ∨
      server.connected ∧ server.send frame priority ready copied written =
        (true, { server with
          sendQueue := server.sendQueue ++ [QueuedFrame.start frame] }.drainSendQueue written) := by
  unfold Server.send
  split
  · rename_i admitted
    exact Or.inr ⟨admitted.1, rfl⟩
  · exact Or.inl rfl

private theorem sound_drain (sound : Sound server) : Sound (server.drainSendQueue written) := by
  cases up : server.connected with
  | true =>
    apply sound_of_serving (by simpa using up)
    simpa [drainSendQueue_keeps_stream] using sound.serving up
  | false => simpa [Server.drainSendQueue, up] using sound

private theorem sound_transmit (sound : Sound server) (waiting : server.fifo ≠ []) :
    Sound (server.transmit count) := by
  cases up : server.connected with
  | true =>
    have balanced := sound.serving up
    rw [← List.take_append_drop count server.fifo, List.append_assoc] at balanced
    exact sound_of_serving up balanced.writing
  | false => exact absurd (sound.idle up).2.1 waiting

private theorem sound_step (sound : Sound server) (stepped : step server event = some next) :
    Sound next := by
  cases event with
  | lineState dtr =>
    cases stepped
    exact sound_lineState sound
  | rx =>
    cases stepped
    unfold Server.handleRx
    split
    · exact sound
    · rename_i down
      exact sound_openSession sound (by simpa using down)
  | send frame priority ready copied written =>
    rcases send_cases server frame priority ready copied written with refused | ⟨up, queued⟩
    · simp only [step, refused, Option.some.injEq] at stepped
      rwa [← stepped]
    · simp only [step, queued, Option.some.injEq] at stepped
      rw [← stepped]
      apply sound_of_serving (by simpa using up)
      simpa [drainSendQueue_keeps_stream] using (sound.serving up).admitting frame.val
  | txComplete written =>
    cases stepped
    exact sound_drain sound
  | transmit count =>
    simp only [step, Option.ite_none_left_eq_some, Option.some.injEq] at stepped
    rw [← stepped.2]
    exact sound_transmit sound stepped.1

theorem sound_run (ran : run step {} events = some server) : Sound server := by
  have first : Sound {} :=
    ⟨fun up => absurd up (by simp), fun _ => ⟨rfl, rfl, SessionLedger.settled_empty⟩⟩
  exact run_invariant sound_step first ran

end BallyOS.Usb
