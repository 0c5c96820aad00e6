import BallyOS.Ble.Latch

/-! Who sends what is waiting. Only `send` and NOTIFY_TX pump, so a queue that
is not empty needs a call on its way to the latch or the latch itself. A pump
that lets go while frames wait breaks this (a failed attempt does, and so does
one that found the queue empty just before a frame came), and so does a client
that subscribes to a queue nobody is pumping. -/
namespace BallyOS.Ble
open Library Transport

/-- Nothing waits, or a completion or a call will pump. -/
def Attended (world : World) : Prop :=
  world.sendQueue = [] ∨ world.notifyInFlight = true ∨ ∃ task, (world.calls task).WillPump

/-- A pump lets go only of an empty queue or with another call about to pump,
a client subscribes only to an attended queue, and no pump outlives a
connection into the next. -/
def KeepsAttended (world : World) : Event → Prop
  | .release _ => world.sendQueue = [] ∨ ∃ task, (world.calls task).WillPump
  | .subscribe true => Attended world
  | .connect => NoPump world.calls
  | _ => True

structure Watched (world : World) : Prop where
  latched : world.connected = true → Latched world
  attended : world.hasClient = true → Attended world

private theorem connected_of_hasClient {world : World} (client : world.hasClient = true) :
    world.connected = true := by
  simp only [World.hasClient, Bool.and_eq_true] at client
  exact client.1

private theorem attended_pump (watched : Watched world) (client : world.hasClient = true)
    (pump : (world.calls task).Pumps) : world.notifyInFlight = true :=
  ((watched.latched (connected_of_hasClient client)).pumping task pump).1

private theorem attended_step (watched : Watched world) (kept : KeepsAttended world event)
    (stepped : step world event = some next) : next.hasClient = true → Attended next := by
  intro client
  have attended := watched.attended
  cases moved_of_step stepped with
  | sendRefused | mtuChanged => exact attended client
  | sendAccepted here | enqueueRefused here =>
    rcases attended client with empty | set | waiting
    · exact .inl empty
    · exact .inr (.inl set)
    · exact .inr (.inr (exists_goto waiting (by simp [here, Call.WillPump])))
  | @enqueued task | @completed task | @drainClient task =>
    exact .inr (.inr ⟨task, by simp [Call.WillPump]⟩)
  | drainAlone _ alone => simp [alone] at client
  | claimTaken _ set => exact .inr (.inl set)
  | claimed => exact .inr (.inl rfl)
  | fillEmpty _ empty => exact .inl empty
  | @filled task _ _ here | @fillFailed task _ _ here | @notified task _ here
  | @notifyRefused task _ here =>
    have pump : (world.calls task).Pumps := by simp [here, Call.Pumps]
    have set : world.notifyInFlight = true := attended_pump watched client pump
    exact .inr (.inl set)
  | @released task here =>
    rcases kept with empty | waiting
    · exact .inl empty
    · exact .inr (.inr (exists_goto waiting (by simp [here, Call.WillPump])))
  | connected | disconnected => simp [World.hasClient] at client
  | @subscribed enabled =>
    cases enabled with
    | false => simp [World.hasClient] at client
    | true => exact kept

private theorem watched_step (watched : Watched world) (kept : KeepsAttended world event)
    (stepped : step world event = some next) : Watched next := by
  have fresh : event = .connect → NoPump world.calls := by
    rintro rfl
    exact kept
  exact ⟨latched_step watched.latched fresh stepped, attended_step watched kept stepped⟩

/-- With no call in progress, a subscribed client and frames waiting, one
notification is in flight and its completion is still to come, in every run
where each pump lets go of an attended queue. -/
theorem waiting_frames_have_a_completion_to_come
    (kept : Along step KeepsAttended World.initial events)
    (ran : run step World.initial events = some world)
    (quiet : ∀ task, world.calls task = .idle) (client : world.hasClient = true)
    (waiting : world.sendQueue ≠ []) :
    world.notifyInFlight = true ∧ world.completions = 1 := by
  have watched : Watched world :=
    run_invariant_along (fun held met stepped => watched_step held met stepped)
      ⟨by simp [World.initial], by simp [World.hasClient, World.initial]⟩ kept ran
  have set : world.notifyInFlight = true := by
    rcases watched.attended client with empty | set | ⟨task, pumping⟩
    · exact absurd empty waiting
    · exact set
    · simp [quiet, Call.WillPump] at pumping
  rcases (watched.latched (connected_of_hasClient client)).held set with one | ⟨task, pumping⟩
  · exact ⟨set, one⟩
  · simp [quiet, Call.Pumps] at pumping

/-- A frame one byte longer than a default notification, half of it sent. -/
def partlySentTrace : List Event :=
  [.connect, .subscribe true, .send 0 (List.replicate 21 7) .normal, .enqueue 0 true, .drain 0,
    .claim 0, .fill 0 true, .notify 0 true]

/-- The same frame when the notification finds no mbuf. -/
def failedMbufTrace : List Event :=
  [.connect, .subscribe true, .send 0 (List.replicate 21 7) .normal, .enqueue 0 true, .drain 0,
    .claim 0, .fill 0 false, .release 0]

private theorem partly_sent_trace_keeps_attended :
    Along step KeepsAttended World.initial partlySentTrace := by
  refine along_of_step (fun _ => id) rfl ?_
  apply along_of_step (.inl rfl) rfl
  repeat refine along_of_step trivial rfl ?_
  exact trivial

/-- A run of one task leaves the others idle. -/
private theorem quiet_of_run (events : List Event)
    (only : ∀ event ∈ events, event.task = none ∨ event.task = some 0)
    (ran : run step World.initial events = some world) (here : world.calls 0 = .idle)
    (task : Nat) : world.calls task = .idle := by
  by_cases same : task = 0
  · subst same
    exact here
  · refine run_other_task (fun event member named => ?_) ran
    rcases only event member with none | zero
    · simp [none] at named
    · exact same (Option.some.inj (zero.symm.trans named)).symm

theorem completion_of_partly_sent_trace : ∃ world,
    run step World.initial partlySentTrace = some world ∧ world.sendQueue ≠ [] ∧
      world.notifyInFlight = true ∧ world.completions = 1 :=
  ⟨_, rfl, by decide, waiting_frames_have_a_completion_to_come partly_sent_trace_keeps_attended
    rfl (quiet_of_run partlySentTrace (by decide) rfl rfl) rfl (by decide)⟩

/-- After a failed mbuf allocation a frame waits and nothing will pump it. -/
theorem failed_mbuf_strands_frame : ¬∀ events world,
    run step World.initial events = some world → (∀ task, world.calls task = .idle) →
      world.hasClient = true → world.sendQueue ≠ [] →
        world.notifyInFlight = true ∧ world.completions = 1 := by
  intro every
  have quiet := quiet_of_run failedMbufTrace (by decide) rfl rfl
  have moving := every failedMbufTrace _ rfl quiet rfl (by decide)
  exact absurd moving.1 (by decide)

end BallyOS.Ble
