import BallyOS.Command.Replay
import BallyOS.Library.Calls

/-! The tasks that use the processor, with the time between a view being
returned and its being sent. Every receive task gets its replies in the one
receive buffer, so a reply still to be sent is overwritten by the next reply of
another receive task; the shell task has a buffer of its own. -/
namespace BallyOS.Command
open Btp Library

/-- A view that was returned, with the request it is for and the bytes it stood
for when it was returned. -/
structure Reply where
  view : ResultView
  own : Recorded
deriving DecidableEq

/-- Where a receive task is. -/
inductive Receiving
  | idle
  | handedOut (cacheSlot : Nat)
  | replying (reply : Reply)
deriving DecidableEq

structure Tasks (Cache Seal : Type) where
  world : World Cache Seal
  receivers : Link → Receiving
  shell : Option Reply
  sent : List (Reply × List UInt8)

inductive TaskEvent
  | arrive (link : Link) (contended : Bool) (header : Header) (payload : List UInt8)
      (nowUs : UInt64) (reserved : Option UInt32) (channel : Channel)
  | queued (link : Link)
  | rejectBusy (link : Link) (nowUs : UInt64) (reserved : Option UInt32)
  | reply (link : Link)
  | complete (cacheSlot : Nat) (shellStatus : UInt8) (nowUs : UInt64) (message : List UInt8)
      (reserved : Option UInt32)
  | replyShell (cleartext : Bool)
  | dropShell
deriving DecidableEq

variable {Cache Seal : Type} (api : Api Cache)

def Tasks.start (processor : Processor Cache Seal) : Tasks Cache Seal :=
  ⟨.start processor, fun _ => .idle, none, []⟩

/-- The reply for the request that holds a slot. -/
def replyFor (before : Processor Cache Seal) (slot : Nat) (view : ResultView)
    (after : Processor Cache Seal) : Option Reply :=
  (record api before slot view after).head?.map fun own => ⟨view, own⟩

/-- `send_result` reads the buffer now. -/
def sending (tasks : Tasks Cache Seal) (reply : Reply) (cleartext : Bool) :
    List (Reply × List UInt8) :=
  match sendResultVia api tasks.world.processor reply.view cleartext with
  | none => tasks.sent
  | some outgoing => tasks.sent ++ [(reply, outgoing.payload)]

def taskStep : Machine (Tasks Cache Seal) TaskEvent := fun tasks event =>
  match event with
  | .arrive link contended header payload nowUs reserved channel =>
    if tasks.receivers link = .idle then
      let world := intakeStep api tasks.world contended header payload nowUs reserved channel
      match (intake api tasks.world.processor contended header payload nowUs reserved
          channel).1 with
      | .ready slot _ => some { tasks with
          world
          receivers := Function.update tasks.receivers link (.handedOut slot) }
      | .resultReady view =>
        let own : Recorded := ⟨header.key, payload, view.sequence, view.timestampUs,
          world.processor.bytesOf view⟩
        some { tasks with
          world
          receivers := Function.update tasks.receivers link (.replying ⟨view, own⟩) }
      | _ => some { tasks with world }
    else none
  | .queued link =>
    match tasks.receivers link with
    | .handedOut _ => some { tasks with
        receivers := Function.update tasks.receivers link .idle }
    | _ => none
  | .rejectBusy link nowUs reserved =>
    match tasks.receivers link with
    | .handedOut slot =>
      let result := rejectBusy api tasks.world.processor slot nowUs reserved
      let reply := result.bind fun (view, after) =>
        replyFor api tasks.world.processor slot view after
      some { tasks with
        world := finishStep api tasks.world slot result
        receivers := Function.update tasks.receivers link
          (match reply with
            | some reply => .replying reply
            | none => .idle) }
    | _ => none
  | .reply link =>
    match tasks.receivers link with
    | .replying reply => some { tasks with
        receivers := Function.update tasks.receivers link .idle
        sent := sending api tasks reply link.cleartext }
    | _ => none
  | .complete cacheSlot shellStatus nowUs message reserved =>
    if tasks.shell = none then
      let result := complete api tasks.world.processor cacheSlot shellStatus nowUs message reserved
      some { tasks with
        world := { finishStep api tasks.world cacheSlot result with
          finished := tasks.world.finished ++ holder api tasks.world.processor cacheSlot }
        shell := result.bind fun (view, after) =>
          replyFor api tasks.world.processor cacheSlot view after }
    else none
  | .replyShell cleartext =>
    match tasks.shell with
    | some reply => some { tasks with shell := none, sent := sending api tasks reply cleartext }
    | none => none
  | .dropShell => some { tasks with shell := none }

/-- The receive task that an event returns a view to, if any. -/
def repliesTo (tasks : Tasks Cache Seal) : TaskEvent → Option Link
  | .arrive link contended header payload nowUs reserved channel =>
    match (intake api tasks.world.processor contended header payload nowUs reserved channel).1 with
    | .resultReady _ => some link
    | _ => none
  | .rejectBusy link nowUs reserved =>
    match tasks.receivers link with
    | .handedOut slot =>
      if (rejectBusy api tasks.world.processor slot nowUs reserved).isSome then some link
      else none
    | _ => none
  | _ => none

/-- A receive task that has a reply to send. -/
def Receiving.Replying (receiving : Receiving) : Prop := ∃ reply, receiving = .replying reply

/-- The condition on a run: a receive task gets a reply only while no other
receive task has one to send. -/
def Undisturbed (tasks : Tasks Cache Seal) (event : TaskEvent) : Prop :=
  ∀ link, repliesTo api tasks event = some link →
    ∀ other, other ≠ link → ¬(tasks.receivers other).Replying

/-- The bytes were encoded for the request the reply is for. -/
def Genuine (reply : Reply) : Prop :=
  ∃ channel status error message,
    encodeResult api (requestMeta reply.own.key reply.own.request channel) status error message
      kMaxResultPayloadSize = some reply.own.payload

/-- A reply to send whose bytes are still in their buffer. -/
structure Intact (processor : Processor Cache Seal) (buffer : ViewBuffer) (reply : Reply) :
    Prop where
  place : reply.view.payload = some buffer
  bytes : processor.bytesOf reply.view = reply.own.payload
  genuine : Genuine api reply

/-- No reply to send was overwritten, and none was sent with foreign bytes. -/
structure Isolated (tasks : Tasks Cache Seal) : Prop where
  agrees : Agrees api tasks.world
  received : ∀ link reply, tasks.receivers link = .replying reply →
    Intact api tasks.world.processor .rx reply
  sole : Sole Receiving.Replying tasks.receivers
  shell : ∀ reply, tasks.shell = some reply → Intact api tasks.world.processor .shell reply
  sent : ∀ reply bytes, (reply, bytes) ∈ tasks.sent → bytes = reply.own.payload ∧ Genuine api reply

variable {api} {tasks next : Tasks Cache Seal}

private theorem intact_of_buffer {before after : Processor Cache Seal}
    (intact : Intact api before buffer reply) (same : after.buffer buffer = before.buffer buffer) :
    Intact api after buffer reply := by
  refine ⟨intact.place, ?_, intact.genuine⟩
  rw [← intact.bytes, Processor.bytesOf, Processor.bytesOf, intact.place]
  exact congrArg _ same

private theorem finish_buffer {processor : Processor Cache Seal} (buffer : ViewBuffer)
    (finished : finish api processor slot status error message nowUs reserved target =
      some (view, after)) (other : buffer ≠ target) :
    after.buffer buffer = processor.buffer buffer := by
  obtain ⟨number, payload, dedup, _, _, _, _, _, rfl⟩ := finish_some api finished
  rw [Processor.buffer_fill _ _ _ _ other]
  cases buffer <;> rfl

/-- A reply just written to its buffer is intact. -/
theorem intact_of_fill (processor : Processor Cache Seal) (target : ViewBuffer) (number : UInt32)
    (nowUs : UInt64) (shown : Channel)
    (coded : encodeResult api (requestMeta key request channel) status error message
      kMaxResultPayloadSize = some bytes) :
    Intact api (processor.fill target bytes) target
      ⟨⟨number, nowUs, some target, bytes.length, shown⟩,
        ⟨key, request, number, nowUs, (processor.fill target bytes).bytesOf
          ⟨number, nowUs, some target, bytes.length, shown⟩⟩⟩ := by
  refine ⟨rfl, rfl, channel, status, error, message, ?_⟩
  rw [Processor.bytesOf_fill]
  exact coded

/-- An arrival leaves the shell buffer alone, and the receive buffer unless it
is replied to. -/
theorem intake_buffer {processor : Processor Cache Seal} (buffer : ViewBuffer)
    (came : intake api processor contended header payload nowUs reserved channel =
      (outcome, after))
    (spared : buffer = .shell ∨ ∀ view, outcome ≠ .resultReady view) :
    after.buffer buffer = processor.buffer buffer := by
  have apart : ∀ view, outcome = .resultReady view → buffer ≠ .rx := by
    rintro view rfl rfl
    rcases spared with other | silent
    · cases other
    · exact silent view rfl
  cases arrived_of_intake came with
  | dropped => rfl
  | known _ _ _ same =>
    rcases (known_fill same).2 with rfl | ⟨view, bytes, replied, rfl⟩
    · cases buffer <;> rfl
    · rw [Processor.buffer_fill _ _ _ _ (apart view replied)]
      cases buffer <;> rfl
  | handedOut => cases buffer <;> rfl
  | answered _ _ finished =>
    rw [finish_buffer buffer finished (apart _ rfl)]
    cases buffer <;> rfl
  | unanswered => cases buffer <;> rfl

/-- What an arrival is replied with was encoded for that very request: now, or
when its result was recorded. -/
theorem genuine_of_intake (lawful : api.dedup.Lawful kCacheCapacity) (within : api.EncodesWithin)
    {world : World Cache Seal} (agrees : Agrees api world)
    (came : intake api world.processor contended header payload nowUs reserved channel =
      (.resultReady view, after)) :
    Intact api after .rx ⟨view,
      ⟨header.key, payload, view.sequence, view.timestampUs, after.bytesOf view⟩⟩ := by
  cases arrived_of_intake came with
  | known _ classified _ same =>
    cases same with
    | replayed =>
      obtain ⟨slot, held⟩ := lawful.complete _ _ _ _ _ classified
      obtain ⟨result, member, key, request, packed⟩ :=
        agrees.2.stored slot _ _ held rfl
      obtain ⟨other, status, error, message, coded⟩ := agrees.2.encoded result member
      have short : result.payload.length ≤ kMaxResultPayloadSize := within _ _ _ coded
      subst packed
      rw [key, request] at coded
      simp only [replayView_packResult _ _ _ _ _ short]
      exact intact_of_fill _ _ _ _ _ coded
    | refused made =>
      obtain ⟨number, bytes, _, coded, rfl, rfl⟩ := makeTransient_some made
      exact intact_of_fill _ _ _ _ _ coded
    | silent none => rcases none with same | same <;> cases same
  | answered _ classified finished =>
    obtain ⟨number, bytes, dedup, _, _, coded, _, rfl, rfl⟩ := finish_some api finished
    rw [Processor.reserve_slotMeta] at coded
    exact intact_of_fill _ _ _ _ _ coded

/-- What a finished slot is replied with was encoded for the request that holds it. -/
theorem genuine_of_finish {world : World Cache Seal} (agrees : Agrees api world)
    (finished : finish api world.processor slot status error message nowUs reserved target =
      some (view, after))
    (replied : replyFor api world.processor slot view after = some reply) :
    Intact api after target reply := by
  obtain ⟨number, bytes, dedup, _, _, coded, _, rfl, rfl⟩ := finish_some api finished
  unfold replyFor record at replied
  split at replied
  · cases replied
  rename_i entry held
  cases replied
  rw [(agrees.2.occupied slot entry held).1] at coded
  exact intact_of_fill _ _ _ _ _ coded

private theorem payload_of_sendResultVia {processor : Processor Cache Seal}
    (sent : sendResultVia api processor view cleartext = some outgoing) :
    outgoing.payload = processor.bytesOf view := by
  unfold sendResultVia at sent
  split at sent
  · cases sent
  split at sent <;> cases sent
  rfl

/-- An intact reply is sent with its own bytes. -/
theorem sent_of_intact (isolated : Isolated api tasks)
    (intact : Intact api tasks.world.processor buffer reply) (cleartext : Bool) :
    ∀ other bytes, (other, bytes) ∈ sending api tasks reply cleartext →
      bytes = other.own.payload ∧ Genuine api other := by
  intro other bytes member
  unfold sending at member
  split at member
  · exact isolated.sent other bytes member
  rename_i outgoing went
  rcases List.mem_append.mp member with old | new
  · exact isolated.sent other bytes old
  · cases List.mem_singleton.mp new
    exact ⟨(payload_of_sendResultVia went).trans intact.bytes, intact.genuine⟩

/-- A receive task that stops or goes on without a reply leaves the rest intact. -/
theorem received_update {receivers : Link → Receiving} {processor : Processor Cache Seal}
    (received : ∀ link reply, receivers link = .replying reply →
      Intact api processor .rx reply) (other : ∀ reply, receiving ≠ .replying reply) :
    ∀ link reply, Function.update receivers moved receiving link = .replying reply →
      Intact api processor .rx reply :=
  (forall_update fun (_ : Link) (now : Receiving) => ∀ reply, now = .replying reply →
    Intact api processor .rx reply).mpr ⟨fun reply same =>
      absurd same (other reply), fun link _ => received link⟩

/-- Without a new reply in the receive buffer, every reply stays intact. -/
theorem isolated_silent {world : World Cache Seal} (isolated : Isolated api tasks)
    (agrees : Agrees api world)
    (sameRx : world.processor.buffer .rx = tasks.world.processor.buffer .rx)
    (sameShell : world.processor.buffer .shell = tasks.world.processor.buffer .shell) :
    Isolated api { tasks with world } where
  agrees := agrees
  received := fun link reply same =>
    intact_of_buffer (isolated.received link reply same) sameRx
  sole := isolated.sole
  shell := fun reply same => intact_of_buffer (isolated.shell reply same) sameShell
  sent := isolated.sent

private theorem isolated_idle (isolated : Isolated api tasks)
    (other : ∀ reply, receiving ≠ .replying reply) :
    Isolated api { tasks with
      receivers := Function.update tasks.receivers moved receiving } where
  agrees := isolated.agrees
  received := received_update isolated.received other
  sole := sole_update_of_holds isolated.sole (by
    rintro ⟨reply, same⟩
    exact absurd same (other reply))
  shell := isolated.shell
  sent := isolated.sent

/-- A new reply in the receive buffer, while no other receive task has one. -/
theorem isolated_replied {world : World Cache Seal} (isolated : Isolated api tasks)
    (agrees : Agrees api world)
    (alone : ∀ other, other ≠ link → ¬(tasks.receivers other).Replying)
    (before : ¬(tasks.receivers link).Replying)
    (intact : Intact api world.processor .rx reply)
    (sameShell : world.processor.buffer .shell = tasks.world.processor.buffer .shell) :
    Isolated api { tasks with
      world
      receivers := Function.update tasks.receivers link (.replying reply) } where
  agrees := agrees
  received :=
    (forall_update fun (_ : Link) (now : Receiving) => ∀ reply, now = .replying reply →
      Intact api world.processor .rx reply).mpr
      ⟨fun _ same => by cases same; exact intact,
        fun other elsewhere reply same => absurd ⟨reply, same⟩ (alone other elsewhere)⟩
  sole := sole_update_of_none fun other => by
    by_cases here : other = link
    · exact here ▸ before
    · exact alone other here
  shell := fun reply same => intact_of_buffer (isolated.shell reply same) sameShell
  sent := isolated.sent

private theorem isolated_arrive (lawful : api.dedup.Lawful kCacheCapacity)
    (within : api.EncodesWithin)
    (isolated : Isolated api tasks)
    (undisturbed : Undisturbed api tasks
      (.arrive link contended header payload nowUs reserved channel))
    (stepped : taskStep api tasks
      (.arrive link contended header payload nowUs reserved channel) = some next) :
    Isolated api next := by
  have agrees :=
    agrees_intake lawful isolated.agrees contended header payload nowUs reserved channel
  have moved := intakeStep_processor api tasks.world contended header payload nowUs reserved channel
  simp only [taskStep] at stepped
  split at stepped
  · rename_i idle
    cases came : intake api tasks.world.processor contended header payload nowUs reserved
      channel with
    | mk outcome after =>
      simp only [came] at moved
      have shell := intake_buffer .shell came (.inl rfl)
      rw [← moved] at shell
      simp only [came] at stepped
      cases outcome with
      | resultReady view =>
        cases stepped
        have intact := genuine_of_intake lawful within isolated.agrees came
        have alone := undisturbed link (by simp [repliesTo, came])
        rw [← moved] at intact
        refine isolated_replied isolated agrees alone ?_ intact shell
        rintro ⟨reply, busy⟩
        cases idle.symm.trans busy
      | ready slot command =>
        cases stepped
        have rx := intake_buffer .rx came (.inr (by simp))
        rw [← moved] at rx
        exact isolated_idle (isolated_silent isolated agrees rx shell) (by simp)
      | duplicateInProgress | ignored =>
        cases stepped
        have rx := intake_buffer .rx came (.inr (by simp))
        rw [← moved] at rx
        exact isolated_silent isolated agrees rx shell
  · cases stepped

private theorem isolated_rejectBusy (lawful : api.dedup.Lawful kCacheCapacity)
    (isolated : Isolated api tasks)
    (undisturbed : Undisturbed api tasks (.rejectBusy link nowUs reserved))
    (stepped : taskStep api tasks (.rejectBusy link nowUs reserved) = some next) :
    Isolated api next := by
  simp only [taskStep] at stepped
  split at stepped
  · rename_i slot waiting
    have worldStep : step api tasks.world (.rejectBusy slot nowUs reserved) = some _ := rfl
    have agrees := agrees_step lawful isolated.agrees worldStep
    cases rejected : rejectBusy api tasks.world.processor slot nowUs reserved with
    | none =>
      simp only [rejected, Option.bind_none, finishStep] at stepped
      cases stepped
      exact isolated_idle isolated (by simp)
    | some made =>
      obtain ⟨view, after⟩ := made
      obtain ⟨status, error, said, finished⟩ := finish_of_rejectBusy rejected
      obtain ⟨reply, replied⟩ : ∃ reply,
          replyFor api tasks.world.processor slot view after = some reply := by
        obtain ⟨entry, held, _⟩ := agrees_finish lawful isolated.agrees.2 finished
        simp [replyFor, record, held]
      simp only [rejected, Option.bind_some, replied] at stepped
      cases stepped
      have alone := undisturbed link (by simp [repliesTo, waiting, rejected])
      have shell := finish_buffer .shell finished (by simp)
      rw [rejected] at agrees
      refine isolated_replied isolated agrees alone ?_
        (genuine_of_finish isolated.agrees finished replied) shell
      rintro ⟨reply, busy⟩
      cases waiting.symm.trans busy
  · cases stepped

private theorem isolated_complete (lawful : api.dedup.Lawful kCacheCapacity)
    (isolated : Isolated api tasks)
    (stepped : taskStep api tasks (.complete cacheSlot shellStatus nowUs message reserved) =
      some next) : Isolated api next := by
  have worldStep : step api tasks.world
      (.complete cacheSlot shellStatus nowUs message reserved) = some _ := rfl
  have agrees := agrees_step lawful isolated.agrees worldStep
  simp only [taskStep] at stepped
  split at stepped
  · cases stepped
    cases completed : complete api tasks.world.processor cacheSlot shellStatus nowUs message
      reserved with
    | none =>
      rw [completed] at agrees
      exact { isolated with agrees := agrees, shell := by simp }
    | some made =>
      obtain ⟨view, after⟩ := made
      obtain ⟨status, error, said, finished⟩ := finish_of_complete completed
      have rx := finish_buffer .rx finished (by simp)
      rw [completed] at agrees
      refine { isolated with agrees := agrees, received := ?_, shell := ?_ }
      · intro link reply same
        exact intact_of_buffer (isolated.received link reply same) rx
      · intro reply same
        exact genuine_of_finish isolated.agrees finished same
  · cases stepped

private theorem isolated_step (lawful : api.dedup.Lawful kCacheCapacity)
    (within : api.EncodesWithin)
    (isolated : Isolated api tasks) (undisturbed : Undisturbed api tasks event)
    (stepped : taskStep api tasks event = some next) : Isolated api next := by
  cases event with
  | arrive link contended header payload nowUs reserved channel =>
    exact isolated_arrive lawful within isolated undisturbed stepped
  | queued link =>
    simp only [taskStep] at stepped
    split at stepped <;> cases stepped
    exact isolated_idle isolated (by simp)
  | rejectBusy link nowUs reserved =>
    exact isolated_rejectBusy lawful isolated undisturbed stepped
  | reply link =>
    simp only [taskStep] at stepped
    split at stepped <;> cases stepped
    rename_i reply waiting
    have went : Isolated api { tasks with
        sent := sending api tasks reply link.cleartext } := { isolated with
      sent := sent_of_intact isolated (isolated.received link reply waiting)
        link.cleartext }
    exact isolated_idle went (by simp)
  | complete cacheSlot shellStatus nowUs message reserved =>
    exact isolated_complete lawful isolated stepped
  | replyShell cleartext =>
    simp only [taskStep] at stepped
    split at stepped <;> cases stepped
    rename_i reply waiting
    have sent := sent_of_intact isolated (isolated.shell reply waiting) cleartext
    exact { isolated with shell := by simp, sent := sent }
  | dropShell =>
    cases stepped
    exact { isolated with shell := by simp }

private theorem isolated_start (lawful : api.dedup.Lawful kCacheCapacity) (robot : Identity)
    (sealLink sealEndpoint : Option Seal) :
    Isolated api (Tasks.start (Processor.configured api robot sealLink sealEndpoint)) where
  agrees := agrees_start lawful robot sealLink sealEndpoint
  received := by simp [Tasks.start]
  sole := by
    rintro first second ⟨reply, busy⟩
    cases busy
  shell := by simp [Tasks.start]
  sent := by simp [Tasks.start]

/-- In a run where no receive task gets a reply while another has one to send,
every reply goes out with the bytes that were encoded for its own request. -/
theorem replies_carry_their_own_bytes (api : Api Cache)
    (lawful : api.dedup.Lawful kCacheCapacity) (within : api.EncodesWithin) (robot : Identity)
    (sealLink sealEndpoint : Option Seal) (events : List TaskEvent) (tasks : Tasks Cache Seal)
    (meets : Along (taskStep api) (Undisturbed api)
      (Tasks.start (Processor.configured api robot sealLink sealEndpoint)) events)
    (ran : run (taskStep api) (Tasks.start (Processor.configured api robot sealLink sealEndpoint))
      events = some tasks) :
    ∀ reply bytes, (reply, bytes) ∈ tasks.sent → bytes = reply.own.payload ∧
      ∃ channel status error message,
        encodeResult api (requestMeta reply.own.key reply.own.request channel) status error message
          kMaxResultPayloadSize = some bytes := by
  have isolated : Isolated api tasks :=
    run_invariant_along (fun holds met stepped => isolated_step lawful within holds met stepped)
      (isolated_start lawful robot sealLink sealEndpoint) meets ran
  intro reply bytes member
  obtain ⟨same, genuine⟩ := isolated.sent reply bytes member
  exact ⟨same, same ▸ genuine⟩

private theorem undisturbed_of_idle (quiet : ∀ link, tasks.receivers link = .idle) :
    Undisturbed api tasks event := by
  rintro link _ other _ ⟨reply, busy⟩
  cases (quiet other).symm.trans busy

private theorem undisturbed_reply : Undisturbed api tasks (.reply link) := by
  intro other replied
  cases replied

def pingRequest : List UInt8 :=
  toBytes 4 1 ++ toBytes 4 2 ++ toBytes 2 2 ++ toBytes 2 1 ++ toBytes 4 0 ++ toBytes 4 0

/-- The ping of another requester. -/
def otherHeader : Header := { helpHeader with sourceId := 70 }

def tasksBench : Tasks (RingCache 16) Unit :=
  Tasks.start (Processor.configured referenceApi ⟨1, 2⟩ none none)

/-- Two receive tasks are pinged and reply one after the other. -/
def repliedInTurnTrace : List TaskEvent :=
  [.arrive .espNow false helpHeader pingRequest 10 (some 1) .cLink, .reply .espNow,
    .arrive .tcp false otherHeader pingRequest 11 (some 2) .bEndpoint, .reply .tcp]

theorem own_bytes_of_replied_in_turn_trace : ∃ tasks,
    run (taskStep referenceApi) tasksBench repliedInTurnTrace = some tasks ∧
    tasks.sent.length = 2 ∧ ∀ reply bytes, (reply, bytes) ∈ tasks.sent →
      bytes = reply.own.payload := by
  have meets : Along (taskStep referenceApi) (Undisturbed referenceApi) tasksBench
      repliedInTurnTrace := by
    have quiet : ∀ link, tasksBench.receivers link = .idle := fun _ => rfl
    apply along_of_step (undisturbed_of_idle quiet) rfl
    apply along_of_step undisturbed_reply rfl
    refine along_of_step (undisturbed_of_idle fun link => ?_) rfl ?_
    · cases link <;> rfl
    · exact along_of_step undisturbed_reply rfl trivial
  have carried := replies_carry_their_own_bytes referenceApi (ringCache_lawful 16)
    referenceApi_encodesWithin ⟨1, 2⟩ none none repliedInTurnTrace _ meets rfl
  exact ⟨_, rfl, rfl, fun reply bytes member => (carried reply bytes member).1⟩

/-- The TCP task is pinged before the ESP-NOW task sent its reply. -/
def overtakenReplyTrace : List TaskEvent :=
  [.arrive .espNow false helpHeader pingRequest 10 (some 1) .cLink,
    .arrive .tcp false otherHeader pingRequest 11 (some 2) .bEndpoint, .reply .espNow]

/-- The overtaken reply goes out with the payload of the other request. -/
theorem overtaken_reply_carries_other_payload : ¬∀ events tasks,
    run (taskStep referenceApi) tasksBench events = some tasks →
      ∀ reply bytes, (reply, bytes) ∈ tasks.sent → bytes = reply.own.payload := by
  intro every
  have same := every overtakenReplyTrace _ rfl
    ⟨⟨1, 10, some .rx, 26, .cLink⟩, ⟨helpHeader.key, pingRequest, 1, 10,
      commandResultBytes ⟨helpHeader.key, 2, 1, 0, 0, []⟩⟩⟩
    (commandResultBytes ⟨otherHeader.key, 2, 1, 0, 0, []⟩) (by decide)
  exact absurd same (by decide)

end BallyOS.Command
