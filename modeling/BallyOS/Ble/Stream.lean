import BallyOS.Ble.Latch

/-! What the peer receives. The pump takes a chunk out of the queue before the
stack has accepted it, so a failed attempt drops those bytes. Up to the first
failure of a connection every admitted byte is handed over, in the pump's hand
or still queued, in order. -/
namespace BallyOS.Ble
open Library Transport

/-- Bytes that have left the queue and are not with the stack yet. -/
def Call.inHand : Call → List UInt8
  | notify chunk => chunk
  | _ => []

/-- The account of one connection's bytes while none has been dropped. -/
structure Accounted (world : World) : Prop where
  pumping : ∀ task, (world.calls task).Pumps → world.admitted.flatten =
    world.handed ++ (world.calls task).inHand ++ pending world.sendQueue
  resting : NoPump world.calls →
    world.admitted.flatten = world.handed ++ pending world.sendQueue

/-- The stack accepts no chunk after the connection dropped one, and no pump
outlives a connection into the next. -/
def KeepsStream (world : World) : Event → Prop
  | .notify _ true => world.lost = []
  | .connect => NoPump world.calls
  | _ => True

structure Streaming (world : World) : Prop where
  latched : world.connected = true → Latched world
  accounted : world.connected = true → world.lost = [] → Accounted world
  ordered : world.handed <+: world.admitted.flatten

/-- A move between calls that do not pump leaves the account as it was. -/
private theorem accounted_of_aside {world next : World} (bytes : List UInt8)
    (accounted : Accounted world) (aside : ¬call.Pumps ∧ ¬(world.calls task).Pumps)
    (calls : next.calls = Function.update world.calls task call)
    (queue : pending next.sendQueue = pending world.sendQueue ++ bytes)
    (admitted : next.admitted.flatten = world.admitted.flatten ++ bytes)
    (handed : next.handed = world.handed) : Accounted next := by
  constructor
  · rw [calls, admitted, queue, handed]
    refine (forall_update fun _ (now : Call) => now.Pumps → world.admitted.flatten ++ bytes =
      world.handed ++ now.inHand ++ (pending world.sendQueue ++ bytes)).mpr ?_
    refine ⟨fun pump => absurd pump aside.1, fun another _ pump => ?_⟩
    rw [accounted.pumping another pump]
    simp
  · rw [calls, admitted, queue, handed]
    intro idle
    have before : NoPump world.calls := by
      intro another pump
      by_cases same : another = task
      · subst same
        exact aside.2 pump
      · exact idle another (by rwa [Function.update_of_ne same])
    rw [accounted.resting before]
    simp

/-- The pump's own moves shift bytes between the queue and its hand. -/
private theorem accounted_of_pump {world next : World} (sole : Sole Call.Pumps next.calls)
    (calls : next.calls = Function.update world.calls task call) (pumps : call.Pumps)
    (balance : next.admitted.flatten = next.handed ++ call.inHand ++ pending next.sendQueue) :
    Accounted next := by
  have here : (next.calls task) = call := by simp [calls]
  constructor
  · intro another pump
    have same : another = task := sole another task pump (by rwa [here])
    rw [same, here, balance]
  · intro idle
    exact absurd (by rwa [here]) (idle task)

/-- When the pump has let go, what is left to send is in the queue. -/
private theorem accounted_of_none {next : World} (idle : NoPump next.calls)
    (balance : next.admitted.flatten = next.handed ++ pending next.sendQueue) :
    Accounted next where
  pumping task pump := absurd pump (idle task)
  resting _ := balance

private theorem accounted_step (streaming : Streaming world)
    (fresh : event = .connect → NoPump world.calls) (stepped : step world event = some next)
    (up : next.connected = true) (whole : next.lost = []) : Accounted next := by
  have latched := streaming.latched
  have after := latched_step latched fresh stepped
  have account := streaming.accounted
  cases moved_of_step stepped with
  | sendRefused => exact account up whole
  | sendAccepted here | enqueueRefused here | drainClient here | drainAlone here
  | claimTaken here =>
    exact accounted_of_aside [] (account up whole) (by simp [here, Call.Pumps]) rfl
      (List.append_nil _).symm (List.append_nil _).symm rfl
  | @enqueued task frame priority copied here =>
    exact accounted_of_aside frame.val (account up whole) (by simp [here, Call.Pumps]) rfl
      (by simp) (by simp) rfl
  | claimed here clear =>
    apply accounted_of_pump (after up).sole rfl trivial
    simpa [Call.inHand] using (account up whole).resting ((latched up).clear clear).1
  | @fillEmpty task mbuf here =>
    apply accounted_of_pump (after up).sole rfl trivial
    simpa [Call.inHand, here] using
      (account up whole).pumping task (by simp [here, Call.Pumps])
  | @filled task chunk left here cut =>
    apply accounted_of_pump (after up).sole rfl trivial
    have stream := fillChunk_keeps_stream world.chunkCapacity world.sendQueue
    have before := (account up whole).pumping task (by simp [here, Call.Pumps])
    simp only [cut] at stream
    simpa [Call.inHand, here, stream] using before
  | @fillFailed task chunk left here cut =>
    simp only [goto_lost, List.append_eq_nil_iff] at whole
    apply accounted_of_pump (after up).sole rfl trivial
    have stream := fillChunk_keeps_stream world.chunkCapacity world.sendQueue
    have before := (account up whole.1).pumping task (by simp [here, Call.Pumps])
    simp only [cut, whole.2, List.nil_append] at stream
    simpa [Call.inHand, here, stream] using before
  | @notified task chunk here =>
    have pump : (world.calls task).Pumps := by simp [here, Call.Pumps]
    apply accounted_of_none (noPump_update (latched up).sole pump (by simp [Call.Pumps]))
    simpa [Call.inHand, here] using (account up whole).pumping task pump
  | @notifyRefused task chunk here =>
    simp only [goto_lost, List.append_eq_nil_iff] at whole
    apply accounted_of_pump (after up).sole rfl trivial
    have before := (account up whole.1).pumping task (by simp [here, Call.Pumps])
    simpa [Call.inHand, here, whole.2] using before
  | @released task here =>
    have pump : (world.calls task).Pumps := by simp [here, Call.Pumps]
    apply accounted_of_none (noPump_update (latched up).sole pump (by simp [Call.Pumps]))
    simpa [Call.inHand, here] using (account up whole).pumping task pump
  | completed here =>
    exact accounted_of_aside [] (account up whole) (by simp [here, Call.Pumps]) rfl
      (List.append_nil _).symm (List.append_nil _).symm rfl
  | connected => exact accounted_of_none (fresh rfl) rfl
  | disconnected => simp at up
  | subscribed | mtuChanged =>
    obtain ⟨pumping, resting⟩ := account up whole
    exact ⟨pumping, resting⟩

private theorem ordered_step (streaming : Streaming world) (kept : KeepsStream world event)
    (stepped : step world event = some next) : next.handed <+: next.admitted.flatten := by
  have ordered := streaming.ordered
  cases moved_of_step stepped with
  | sendRefused | sendAccepted | enqueueRefused | drainClient | drainAlone | claimTaken | claimed
  | fillEmpty | filled | fillFailed | notifyRefused | released | completed | disconnected
  | subscribed | mtuChanged => exact ordered
  | enqueued => exact ordered.trans (by simp)
  | @notified task chunk here up =>
    have account := (streaming.accounted up kept).pumping task (by simp [here, Call.Pumps])
    exact ⟨pending world.sendQueue, by simpa [Call.inHand, here] using account.symm⟩
  | connected => exact List.prefix_rfl

private theorem streaming_step (streaming : Streaming world) (kept : KeepsStream world event)
    (stepped : step world event = some next) : Streaming next := by
  have fresh : event = .connect → NoPump world.calls := by
    rintro rfl
    exact kept
  exact ⟨latched_step streaming.latched fresh stepped,
    accounted_step streaming fresh stepped, ordered_step streaming kept stepped⟩

private theorem streaming_initial : Streaming World.initial :=
  ⟨nofun, nofun, List.prefix_rfl⟩

/-- What the stack accepted is an ordered beginning of what `send` admitted,
with no byte missing, in every run that hands nothing over after a failed
attempt of the same connection. -/
theorem handed_bytes_begin_the_admitted_stream
    (kept : Along step KeepsStream World.initial events)
    (ran : run step World.initial events = some world) :
    world.handed <+: world.admitted.flatten :=
  (run_invariant_along (fun held met stepped => streaming_step held met stepped)
    streaming_initial kept ran).ordered

/-- A whole frame over one notification, and its completion. -/
def cleanTrace : List Event :=
  [.connect, .subscribe true, .send 0 [7, 8] .normal, .enqueue 0 true, .drain 0, .claim 0,
    .fill 0 true, .notify 0 true, .notifyTx 1]

private theorem clean_trace_keeps_stream : Along step KeepsStream World.initial cleanTrace := by
  refine along_of_step (fun _ => id) rfl ?_
  repeat refine along_of_step trivial rfl ?_
  exact along_of_step rfl rfl (along_of_step trivial rfl trivial)

theorem handed_bytes_of_clean_trace : ∃ world, run step World.initial cleanTrace = some world ∧
    world.handed = [7, 8] ∧ world.handed <+: world.admitted.flatten :=
  ⟨_, rfl, rfl, handed_bytes_begin_the_admitted_stream clean_trace_keeps_stream rfl⟩

/-- The first frame's notification finds no mbuf, the second one's does. -/
def droppedFrameTrace : List Event :=
  [.connect, .subscribe true, .send 0 [7, 8] .normal, .enqueue 0 true, .drain 0, .claim 0,
    .fill 0 false, .release 0, .send 0 [9] .normal, .enqueue 0 true, .drain 0, .claim 0,
    .fill 0 true, .notify 0 true]

/-- After a failed mbuf allocation the peer receives a stream with a hole. -/
theorem failed_mbuf_breaks_stream : ¬∀ events world,
    run step World.initial events = some world → world.handed <+: world.admitted.flatten := by
  intro every
  have broken := every droppedFrameTrace _ rfl
  revert broken
  decide

end BallyOS.Ble
