import BallyOS.Library.Run
import BallyOS.Transport.SendQueue

/-! The margin that admission keeps for frames that are not telemetry. A queue does not
remember what its frames were sent as, so they are followed from where they enter: a step
puts at most one admitted frame behind the others and takes frames from the head alone. -/
namespace BallyOS.Transport
open Library

/-- A frame and what it was sent as. -/
structure Sent where
  data : List UInt8
  priority : FramePriority
deriving DecidableEq

def telemetryCount (sent : List Sent) : Nat := sent.countP fun frame => frame.priority = .telemetry

def normalCount (sent : List Sent) : Nat := sent.countP fun frame => frame.priority = .normal

def contents (queue : List QueuedFrame) : List (List UInt8) := queue.map QueuedFrame.data

/-- A server by its steps, its queue, and the frame that an event puts into the queue. -/
structure Carrier (State Event : Type) where
  step : Machine State Event
  queue : State → List QueuedFrame
  entering : State → Event → Option Sent

namespace Carrier
variable {State Event : Type} (carrier : Carrier State Event)

/-- What enters was admitted, and frames leave from the head. -/
structure Queues (depth ceiling : Nat) : Prop where
  admitted : ∀ state event sent, carrier.entering state event = some sent →
    admits sent.priority (carrier.queue state).length depth ceiling = true
  fifo : ∀ state event next, carrier.step state event = some next →
    contents (carrier.queue next) <:+
      contents (carrier.queue state) ++ (carrier.entering state event).toList.map Sent.data

/-- The steps, with what the queued frames were sent as. -/
def followed : Machine (State × List Sent) Event
  | (state, sent), event => (carrier.step state event).map fun next =>
    let grown := sent ++ (carrier.entering state event).toList
    (next, grown.drop (grown.length - (carrier.queue next).length))

/-- Every run is followed. -/
theorem run_followed {start finish : State} {events : List Event}
    (ran : run carrier.step start events = some finish) (sent : List Sent) :
    ∃ after, run carrier.followed (start, sent) events = some (finish, after) := by
  induction events generalizing start sent with
  | nil =>
    cases ran
    exact ⟨sent, rfl⟩
  | cons event rest ih =>
    obtain ⟨next, stepped, ran⟩ := run_cons.mp ran
    obtain ⟨after, followed⟩ := ih ran _
    exact ⟨after, run_cons.mpr ⟨_, by rw [Carrier.followed, stepped]; rfl, followed⟩⟩

/-- The frames followed are those queued, and the bounds hold of them. -/
structure Bounded (depth ceiling : Nat) (followed : State × List Sent) : Prop where
  same : followed.2.map Sent.data = contents (carrier.queue followed.1)
  length : followed.2.length ≤ depth
  telemetry : telemetryCount followed.2 ≤ ceiling

end Carrier

private theorem admits_iff (priority : FramePriority) (queueCount queueDepth telemetryCeiling : Nat)
    :
    admits priority queueCount queueDepth telemetryCeiling = true ↔
      queueCount < queueDepth ∧ (priority = .telemetry → queueCount < telemetryCeiling) := by
  unfold admits
  split
  · simp only [Bool.false_eq_true, false_iff, not_and]
    omega
  split
  · rename_i refused
    simp only [Bool.false_eq_true, false_iff, not_and]
    exact fun _ below => absurd (below refused.1) (Nat.not_lt.mpr refused.2)
  · rename_i room free
    simp only [not_and, Nat.not_le] at free
    exact iff_of_true rfl ⟨Nat.not_le.mp room, free⟩

private theorem normalCount_add_telemetryCount (sent : List Sent) :
    normalCount sent + telemetryCount sent = sent.length := by
  unfold normalCount telemetryCount
  induction sent with
  | nil => rfl
  | cons frame rest ih => cases kind : frame.priority <;> simp [kind] <;> omega

private theorem telemetryCount_le (sent : List Sent) : telemetryCount sent ≤ sent.length :=
  List.countP_le_length

namespace Carrier
variable {State Event : Type} {carrier : Carrier State Event} {depth ceiling : Nat}

private theorem Bounded.grow {state : State} {sent : List Sent} (event : Event)
    (bounded : carrier.Bounded depth ceiling (state, sent))
    (queues : carrier.Queues depth ceiling) :
    (sent ++ (carrier.entering state event).toList).length ≤ depth ∧
      telemetryCount (sent ++ (carrier.entering state event).toList) ≤ ceiling := by
  have count : sent.length = (carrier.queue state).length := by
    simpa [contents] using congrArg List.length bounded.same
  cases enters : carrier.entering state event with
  | none => simpa using ⟨bounded.length, bounded.telemetry⟩
  | some frame =>
    obtain ⟨room, below⟩ := (admits_iff ..).mp (queues.admitted state event frame enters)
    have before := telemetryCount_le sent
    refine ⟨by simp; omega, ?_⟩
    have counted : telemetryCount (sent ++ [frame]) =
        telemetryCount sent + telemetryCount [frame] := List.countP_append
    rw [Option.toList_some, counted]
    cases kind : frame.priority with
    | normal => simpa [telemetryCount, kind] using bounded.telemetry
    | telemetry =>
      have := below kind
      simp only [telemetryCount, List.countP_cons, List.countP_nil, kind] at before ⊢
      simp
      omega

private theorem Bounded.step {before after : State × List Sent} {event : Event}
    (bounded : carrier.Bounded depth ceiling before) (queues : carrier.Queues depth ceiling)
    (stepped : carrier.followed before event = some after) :
    carrier.Bounded depth ceiling after := by
  obtain ⟨state, sent⟩ := before
  obtain ⟨next, moved, rfl⟩ := Option.map_eq_some_iff.mp stepped
  obtain ⟨length, telemetry⟩ := bounded.grow event queues
  generalize grows : sent ++ (carrier.entering state event).toList = grown at length telemetry
  have fifo := queues.fifo state event next moved
  rw [← bounded.same, ← List.map_append, grows] at fifo
  refine ⟨?_, ?_, ?_⟩
  · have left := List.suffix_iff_eq_drop.mp fifo
    simpa [grows, contents, List.map_drop] using left.symm
  · simp only [List.length_drop]
    omega
  · exact Nat.le_trans (List.Sublist.countP_le (List.drop_sublist _ _)) telemetry

theorem bounded_run (queues : carrier.Queues depth ceiling) {start : State}
    (empty : carrier.queue start = []) {events : List Event} {after : State × List Sent}
    (ran : run carrier.followed (start, []) events = some after) :
    carrier.Bounded depth ceiling after :=
  run_invariant (fun bounded stepped => Bounded.step bounded queues stepped)
    ⟨by simp [empty, contents], Nat.zero_le _, Nat.zero_le _⟩ ran

end Carrier

/-- The margin works in a queue whose frames were sent so. `refused` says that a frame that
is not telemetry is refused with nothing but the queue against it. -/
structure Reserved (depth ceiling : Nat) (queue : List QueuedFrame) (sent : List Sent)
    (refused : Prop) : Prop where
  same : sent.map Sent.data = contents queue
  bounded : queue.length ≤ depth
  telemetry : telemetryCount sent ≤ ceiling
  full : refused → queue.length = depth ∧ depth - ceiling ≤ normalCount sent
  alone : ceiling < depth → normalCount sent = 0 → ¬refused

theorem Carrier.Bounded.reserved {State Event : Type} {carrier : Carrier State Event}
    {depth ceiling : Nat} {state : State} {sent : List Sent}
    (bounded : carrier.Bounded depth ceiling (state, sent)) {refused : Prop}
    (unadmitted : refused →
      admits .normal (carrier.queue state).length depth ceiling = false) :
    Reserved depth ceiling (carrier.queue state) sent refused := by
  have count : sent.length = (carrier.queue state).length := by
    simpa [contents] using congrArg List.length bounded.same
  have length := bounded.length
  have telemetry := bounded.telemetry
  have sum := normalCount_add_telemetryCount sent
  have full : refused → (carrier.queue state).length = depth := by
    intro refuses
    have unroomy := (admits_iff ..).not.mp (Bool.eq_false_iff.mp (unadmitted refuses))
    simp only [reduceCtorEq, false_implies, and_true, Nat.not_lt] at unroomy
    simp only at length
    omega
  refine ⟨bounded.same, count ▸ length, telemetry, ?_, ?_⟩
  · intro refuses
    have all := full refuses
    exact ⟨all, by simp only at telemetry; omega⟩
  · intro margin none refuses
    have all := full refuses
    simp only at telemetry
    omega

/-! ### What leaves the queue -/

theorem contents_drain (attempts : Nat → Attempt) (queue : List QueuedFrame) :
    contents (drain attempts queue).left <:+ contents queue := by
  induction queue generalizing attempts with
  | nil => exact List.suffix_rfl
  | cons frame queue ih =>
    unfold drain
    cases attempts 0 with
    | wrote count =>
      dsimp only
      split
      · exact List.suffix_rfl
      · exact (ih _).trans (List.suffix_cons _ _)
    | later | broken => exact List.suffix_rfl

theorem contents_fillChunk (room : Nat) (queue : List QueuedFrame) :
    contents (fillChunk room queue).2 <:+ contents queue := by
  induction queue generalizing room with
  | nil => exact List.suffix_rfl
  | cons frame queue ih =>
    unfold fillChunk
    split
    · exact List.suffix_rfl
    split
    · exact (ih _).trans (List.suffix_cons _ _)
    · exact List.suffix_rfl

end BallyOS.Transport
