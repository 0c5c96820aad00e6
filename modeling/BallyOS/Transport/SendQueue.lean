import Mathlib.Data.List.Basic

/-! The outgoing frame queue that the direct transports share: who is admitted,
what a queued frame still has to send, and how one chunk is cut out of the
queue. The queue is a byte stream to its peer, so its meaning is the bytes
that are still waiting. -/
namespace BallyOS.Transport

inductive FramePriority
  | normal
  | telemetry
deriving Repr, DecidableEq

/-- Whether one more frame may be queued. The slots above the ceiling are
reserved for frames that are not telemetry. -/
def admits (priority : FramePriority) (queueCount queueDepth telemetryCeiling : Nat) : Bool :=
  if queueCount ≥ queueDepth then false
  else if priority = .telemetry ∧ queueCount ≥ telemetryCeiling then false
  else true

/-- Bytes a caller may hand to `send`, which refuses an empty frame. -/
abbrev Frame := {data : List UInt8 // data ≠ []}

/-- A frame with its send offset. A finished frame leaves the queue, so one
that is queued has bytes left. -/
structure QueuedFrame where
  data : List UInt8
  offset : Nat
  unfinished : offset < data.length
deriving DecidableEq

namespace QueuedFrame

def start (frame : Frame) : QueuedFrame :=
  ⟨frame.val, 0, List.length_pos_iff.mpr frame.property⟩

def remaining (frame : QueuedFrame) : Nat := frame.data.length - frame.offset

/-- The bytes that have not been taken yet. -/
def rest (frame : QueuedFrame) : List UInt8 := frame.data.drop frame.offset

def advance (frame : QueuedFrame) (take : Nat) (short : take < frame.remaining) : QueuedFrame :=
  ⟨frame.data, frame.offset + take, by unfold remaining at short; omega⟩

@[simp] theorem rest_start (frame : Frame) : (start frame).rest = frame.val := rfl

@[simp] theorem length_rest (frame : QueuedFrame) : frame.rest.length = frame.remaining := by
  simp [rest, remaining]

@[simp] theorem rest_advance (frame : QueuedFrame) (short : take < frame.remaining) :
    (frame.advance take short).rest = frame.rest.drop take := by
  simp [rest, advance, List.drop_drop]

end QueuedFrame

/-- The bytes waiting in a queue, in the order they leave. -/
def pending (queue : List QueuedFrame) : List UInt8 := queue.flatMap QueuedFrame.rest

@[simp] theorem pending_nil : pending [] = [] := rfl

@[simp] theorem pending_cons (frame : QueuedFrame) (queue : List QueuedFrame) :
    pending (frame :: queue) = frame.rest ++ pending queue := rfl

@[simp] theorem pending_append (first second : List QueuedFrame) :
    pending (first ++ second) = pending first ++ pending second := by
  simp [pending]

/-- One chunk of at most `room` bytes from as many frames as fit, and the
queue that is left. A frame that does not fit whole stays at the head. -/
def fillChunk (room : Nat) : List QueuedFrame → List UInt8 × List QueuedFrame
  | [] => ([], [])
  | frame :: queue =>
    if room = 0 then ([], frame :: queue)
    else if fits : frame.remaining ≤ room then
      let (chunk, left) := fillChunk (room - frame.remaining) queue
      (frame.rest ++ chunk, left)
    else (frame.rest.take room, frame.advance room (by omega) :: queue)

/-- Cutting a chunk moves bytes and changes none of them. -/
theorem fillChunk_keeps_stream (room : Nat) (queue : List QueuedFrame) :
    (fillChunk room queue).1 ++ pending (fillChunk room queue).2 = pending queue := by
  induction queue generalizing room with
  | nil => rfl
  | cons frame queue ih =>
    unfold fillChunk
    split
    · rfl
    split
    · simp only [List.append_assoc, ih, pending_cons]
    · simp only [pending_cons, QueuedFrame.rest_advance, ← List.append_assoc,
        List.take_append_drop]

/-- What one attempt to write the rest of a frame comes to. -/
inductive Attempt
  | wrote (count : Nat)
  | later
  | broken
deriving Repr, DecidableEq

/-- What one transmit pass wrote, what it left, and whether the link failed. -/
structure Drained where
  written : List UInt8
  left : List QueuedFrame
  broken : Bool
deriving DecidableEq

/-- A transmit pass: whole frames leave the queue, a frame written in part
keeps its place at the head and ends the pass. -/
def drain (attempts : Nat → Attempt) : List QueuedFrame → Drained
  | [] => ⟨[], [], false⟩
  | frame :: queue =>
    match attempts 0 with
    | .wrote count =>
      if short : count < frame.remaining then
        ⟨frame.rest.take count, frame.advance count short :: queue, false⟩
      else
        let after := drain (fun index => attempts (index + 1)) queue
        { after with written := frame.rest ++ after.written }
    | .later => ⟨[], frame :: queue, false⟩
    | .broken => ⟨[], frame :: queue, true⟩

/-- A pass moves bytes from the head of the stream and changes none of them. -/
theorem drain_keeps_stream (attempts : Nat → Attempt) (queue : List QueuedFrame) :
    (drain attempts queue).written ++ pending (drain attempts queue).left = pending queue := by
  induction queue generalizing attempts with
  | nil => rfl
  | cons frame queue ih =>
    unfold drain
    cases attempts 0 with
    | wrote count =>
      dsimp only
      split
      · simp only [pending_cons, QueuedFrame.rest_advance, ← List.append_assoc,
          List.take_append_drop]
      · simp only [List.append_assoc, ih, pending_cons]
    | later | broken => rfl

end BallyOS.Transport
