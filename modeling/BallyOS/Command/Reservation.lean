import BallyOS.Btp.Endpoint
import BallyOS.Command.ReplyKeys
import BallyOS.Command.ReplyBuffers

/-! Which operations of the processor reserve a sequence, and what the reserved
number then stands for: a number reaches a reply or a record only with the one
result it was reserved for, however often that result is replayed. -/
namespace BallyOS.Command
open Btp Library

variable {Cache Seal : Type} (api : Api Cache)

/-- Whether a fresh request is handed out: it parses, is no ping and holds a
shell command. -/
def runnable (header : Header) (payload : List UInt8) (robot : Identity) : Bool :=
  match parseRequest api header payload robot with
  | .error _ => false
  | .ok request => (requestMeta header.key payload .cLink).actionId ≠ kPingActionId &&
      (copyShellCommand request (kMaxShellCommandSize + 1)).isOk

/-- Whether `intake` gets as far as `reserve_sequence`. -/
def intakeReserves (processor : Processor Cache Seal) (contended : Bool) (header : Header)
    (payload : List UInt8) : Bool :=
  heard processor contended header payload &&
    match (api.dedup.classify processor.dedup header.key payload).1, processor.endpoint with
    | .conflict, _ | .evicted, _ | .capacityExhausted, _ => true
    | .fresh slot, some robot => slot < kCacheCapacity && !runnable api header payload robot
    | _, _ => false

/-- Whether `finish` gets as far as `reserve_sequence`. -/
def finishReserves (processor : Processor Cache Seal) (slot : Nat) : Bool :=
  processor.endpoint.isSome && slot < kCacheCapacity

def TaskEvent.reserves (tasks : Tasks Cache Seal) : TaskEvent → Bool
  | .arrive _ contended header payload _ _ _ =>
    intakeReserves api tasks.world.processor contended header payload
  | .rejectBusy link _ _ =>
    match tasks.receivers link with
    | .handedOut slot => finishReserves tasks.world.processor slot
    | _ => false
  | .complete cacheSlot .. => finishReserves tasks.world.processor cacheSlot
  | _ => false

/-- The same event with the sequence that the endpoint has for it. -/
def TaskEvent.withReserved (reserved : Option UInt32) : TaskEvent → TaskEvent
  | .arrive link contended header payload nowUs _ channel =>
    .arrive link contended header payload nowUs reserved channel
  | .rejectBusy link nowUs _ => .rejectBusy link nowUs reserved
  | .complete cacheSlot shellStatus nowUs message _ =>
    .complete cacheSlot shellStatus nowUs message reserved
  | event => event

def resultMessage (timestampUs : UInt64) (payload : List UInt8) : Message :=
  ⟨.command, kCommandResultObjectId, timestampUs, payload⟩

/-- The message a reply was made as. -/
def Reply.made (reply : Reply) : Message := resultMessage reply.view.timestampUs reply.own.payload

/-- The numbers the command path may still send under, each with its message. -/
inductive Carries (tasks : Tasks Cache Seal) : UInt32 → Message → Prop
  | recorded : result ∈ tasks.world.recorded →
      Carries tasks result.sequence (resultMessage result.timestampUs result.payload)
  | received : tasks.receivers link = .replying reply →
      Carries tasks reply.view.sequence reply.made
  | shell : tasks.shell = some reply → Carries tasks reply.view.sequence reply.made

variable {api} {tasks next : Tasks Cache Seal}

private theorem finish_outside {processor : Processor Cache Seal} (outside : ¬slot < kCacheCapacity)
    :
    finish api processor slot status error message nowUs reserved target = none := by
  unfold finish
  rw [if_pos (Or.inr (Nat.le_of_not_lt outside))]

private theorem intakeFresh_unreserved {processor : Processor Cache Seal}
    (occupant : processor.slotMeta slot = requestMeta header.key payload channel)
    (spared : ¬slot < kCacheCapacity ∨ runnable api header payload robot = true) :
    intakeFresh api processor slot header payload nowUs reserved robot =
      intakeFresh api processor slot header payload nowUs none robot := by
  rcases spared with outside | runs
  · simp only [intakeFresh, finish_outside outside]
  · unfold runnable at runs
    unfold intakeFresh
    cases parsed : parseRequest api header payload robot with
    | error => simp [parsed] at runs
    | ok request =>
      simp only [parsed, Bool.and_eq_true, decide_eq_true_eq] at runs
      obtain ⟨other, copied⟩ := runs
      have noPing : (processor.slotMeta slot).actionId ≠ kPingActionId := by
        rw [occupant]
        exact other
      simp only [if_neg noPing]
      cases command : copyShellCommand request (kMaxShellCommandSize + 1) with
      | error => simp [command, Except.isOk, Except.toBool] at copied
      | ok => rfl

/-- Without a reservation it does not matter what number there would have been. -/
theorem intake_unreserved {processor : Processor Cache Seal}
    (unreserved : intakeReserves api processor contended header payload = false) :
    intake api processor contended header payload nowUs reserved channel =
      intake api processor contended header payload nowUs none channel := by
  unfold intake
  split
  · rfl
  rename_i listening
  have fits : heard processor contended header payload = true := by simpa using listening
  simp only [intakeReserves, fits, Bool.true_and] at unreserved
  cases classified : api.dedup.classify processor.dedup
    (requestMeta header.key payload channel).key payload with
  | mk verdict dedup =>
    have same : (api.dedup.classify processor.dedup header.key payload).1 = verdict :=
      congrArg Prod.fst classified
    rw [same] at unreserved
    simp only [classified]
    cases verdict with
    | conflict | evicted | capacityExhausted => simp at unreserved
    | duplicateComplete | duplicateInFlight | invalidArgument => rfl
    | fresh slot =>
      dsimp only
      cases set : processor.endpoint with
      | none => rfl
      | some robot =>
        simp only [set, Bool.and_eq_false_iff, decide_eq_false_iff_not, Bool.not_eq_false']
          at unreserved
        exact intakeFresh_unreserved (Function.update_self ..) unreserved

/-- A result an arrival is replied with is a recorded one again, or has the
number that was reserved for it. -/
theorem numbered_of_intake (lawful : api.dedup.Lawful kCacheCapacity) (within : api.EncodesWithin)
    {world : World Cache Seal} (agrees : Agrees api world)
    (came : intake api world.processor contended header payload nowUs reserved channel =
      (.resultReady view, after)) :
    (freshSlot api world.processor contended header payload = none ∧
      ∃ result ∈ world.recorded, view.sequence = result.sequence ∧
        view.timestampUs = result.timestampUs ∧ after.bytesOf view = result.payload) ∨
    intakeReserves api world.processor contended header payload = true ∧
      reserved = some view.sequence := by
  have fresh : ∀ given, intake api world.processor contended header payload nowUs given channel =
      (.resultReady view, after) →
      (freshSlot api world.processor contended header payload = none ∧
      ∃ result ∈ world.recorded, view.sequence = result.sequence ∧
        view.timestampUs = result.timestampUs ∧ after.bytesOf view = result.payload) ∨
      given = some view.sequence := by
    intro given came
    cases arrived_of_intake came with
    | known _ classified other same =>
      cases same with
      | replayed =>
        obtain ⟨slot, held⟩ := lawful.complete _ _ _ _ _ classified
        obtain ⟨result, member, _, _, packed⟩ := agrees.2.stored slot _ _ held rfl
        obtain ⟨_, _, _, _, coded⟩ := agrees.2.encoded result member
        have short : result.payload.length ≤ kMaxResultPayloadSize := within _ _ _ coded
        subst packed
        rw [replayView_packResult _ _ _ _ _ short]
        exact .inl ⟨freshSlot_of_other classified other, result, member, rfl, rfl,
          Processor.bytesOf_fill ..⟩
      | refused made =>
        obtain ⟨number, bytes, given, _, rfl, _⟩ := makeTransient_some made
        exact .inr given
      | silent none => rcases none with same | same <;> cases same
    | answered _ _ finished =>
      obtain ⟨number, bytes, dedup, given, _, _, _, rfl, _⟩ := finish_some api finished
      exact .inr given
  cases reserves : intakeReserves api world.processor contended header payload with
  | true => exact (fresh reserved came).imp_right fun given => ⟨rfl, given⟩
  | false =>
    rw [intake_unreserved reserves] at came
    exact .inl ((fresh none came).resolve_right (by simp))

theorem agrees_taskStep (lawful : api.dedup.Lawful kCacheCapacity)
    (agrees : Agrees api tasks.world) (stepped : taskStep api tasks event = some next) :
    Agrees api next.world := by
  cases event with
  | arrive link contended header payload nowUs reserved channel =>
    have arrived := agrees_intake lawful agrees contended header payload nowUs reserved channel
    simp only [taskStep] at stepped
    split at stepped
    · split at stepped <;> cases stepped <;> exact arrived
    · cases stepped
  | rejectBusy link nowUs reserved =>
    simp only [taskStep] at stepped
    split at stepped
    · rename_i slot _
      have worldStep : step api tasks.world (.rejectBusy slot nowUs reserved) = some _ := rfl
      cases stepped
      exact agrees_step lawful agrees worldStep
    · cases stepped
  | complete cacheSlot shellStatus nowUs message reserved =>
    have worldStep : step api tasks.world
        (.complete cacheSlot shellStatus nowUs message reserved) = some _ := rfl
    simp only [taskStep] at stepped
    split at stepped
    · cases stepped
      exact agrees_step lawful agrees worldStep
    · cases stepped
  | queued | reply | replyShell =>
    simp only [taskStep] at stepped
    split at stepped <;> cases stepped
    exact agrees
  | dropShell =>
    cases stepped
    exact agrees

private theorem mem_record (member : result ∈ record api before slot view after) :
    result.sequence = view.sequence ∧
      resultMessage result.timestampUs result.payload =
        resultMessage view.timestampUs (after.bytesOf view) := by
  unfold record at member
  split at member
  · cases member
  · cases List.mem_singleton.mp member
    exact ⟨rfl, rfl⟩

private theorem made_of_replyFor (replied : replyFor api before slot view after = some reply) :
    reply.view.sequence = view.sequence ∧
      reply.made = resultMessage view.timestampUs (after.bytesOf view) := by
  unfold replyFor record at replied
  split at replied
  · cases replied
  · cases replied
    exact ⟨rfl, rfl⟩

private theorem replying_of_update {receivers : Link → Receiving}
    (same : Function.update receivers moved receiving link = .replying reply) :
    receivers link = .replying reply ∨ receiving = .replying reply := by
  by_cases here : link = moved
  · subst here
    rw [Function.update_self] at same
    exact .inr same
  · rw [Function.update_of_ne here] at same
    exact .inl same

/-- What an arrival writes down is the result it is replied with. -/
theorem recorded_of_intakeStep {world : World Cache Seal}
    (came : intake api world.processor contended header payload nowUs reserved channel =
      (outcome, after))
    (member : result ∈
      (intakeStep api world contended header payload nowUs reserved channel).recorded) :
    result ∈ world.recorded ∨ ∃ view, outcome = .resultReady view ∧
      freshSlot api world.processor contended header payload ≠ none ∧
      result.sequence = view.sequence ∧ resultMessage result.timestampUs result.payload =
        resultMessage view.timestampUs (after.bytesOf view) := by
  simp only [intakeStep, came] at member
  split at member
  · exact .inl member
  · split at member
    · rename_i view taken
      rcases List.mem_append.mp member with old | new
      · exact .inl old
      · cases List.mem_singleton.mp new
        exact .inr ⟨view, rfl, Option.isSome_iff_ne_none.mp taken, rfl, rfl⟩
    · exact .inl member
  · exact .inl member

/-- The one number that a step of the command path may put to use, and the
message it is then for. -/
def Puts (reserves : Bool) (reserved : Option UInt32) (message : Message) (number : UInt32)
    (item : Message) : Prop :=
  reserves = true ∧ reserved = some number ∧ item = message

private theorem carries_arrive (lawful : api.dedup.Lawful kCacheCapacity)
    (within : api.EncodesWithin) (agrees : Agrees api tasks.world)
    (stepped : taskStep api tasks
      (.arrive link contended header payload nowUs reserved channel) = some next) :
    ∃ message, ∀ number item, Carries next number item → Carries tasks number item ∨
      Puts (intakeReserves api tasks.world.processor contended header payload) reserved message
        number item := by
  have moved := intakeStep_processor api tasks.world contended header payload nowUs reserved channel
  cases came : intake api tasks.world.processor contended header payload nowUs reserved
    channel with
  | mk outcome after =>
    have recorded : ∀ result ∈
        (intakeStep api tasks.world contended header payload nowUs reserved channel).recorded, _ :=
        fun result => recorded_of_intakeStep came
    simp only [came] at moved
    simp only [taskStep, came] at stepped
    split at stepped
    · cases outcome with
      | resultReady view =>
        cases stepped
        have made : Reply.made ⟨view, ⟨header.key, payload, view.sequence, view.timestampUs,
            (intakeStep api tasks.world contended header payload nowUs reserved
              channel).processor.bytesOf view⟩⟩ =
            resultMessage view.timestampUs (after.bytesOf view) := by
          rw [moved]
          rfl
        refine ⟨resultMessage view.timestampUs (after.bytesOf view), ?_⟩
        rcases numbered_of_intake lawful within agrees came with
          ⟨known, original, member, number, time, bytes⟩ | put
        · rintro _ _ (held | same | same)
          · rcases recorded _ held with old | ⟨_, _, fresh, _⟩
            · exact .inl (.recorded old)
            · exact absurd known fresh
          · rcases replying_of_update same with old | new
            · exact .inl (.received old)
            · cases new
              rw [made, number, time, bytes]
              exact .inl (.recorded member)
          · exact .inl (.shell same)
        · rintro _ _ (held | same | same)
          · rcases recorded _ held with old | ⟨_, shown, _, number, kept⟩
            · exact .inl (.recorded old)
            · cases shown
              exact .inr ⟨put.1, number ▸ put.2, kept⟩
          · rcases replying_of_update same with old | new
            · exact .inl (.received old)
            · cases new
              exact .inr ⟨put.1, put.2, made⟩
          · exact .inl (.shell same)
      | ready | duplicateInProgress | ignored =>
        cases stepped
        refine ⟨resultMessage 0 [], ?_⟩
        rintro _ _ (held | same | same)
        · rcases recorded _ held with old | ⟨_, shown, _⟩
          · exact .inl (.recorded old)
          · cases shown
        · first
            | exact .inl (.received same)
            | rcases replying_of_update same with old | new
              · exact .inl (.received old)
              · cases new
        · exact .inl (.shell same)
    · cases stepped

private theorem recorded_of_finishStep {world : World Cache Seal}
    (member : result ∈ (finishStep api world slot finished).recorded) :
    result ∈ world.recorded ∨ ∃ view after, finished = some (view, after) ∧
      result.sequence = view.sequence ∧ resultMessage result.timestampUs result.payload =
        resultMessage view.timestampUs (after.bytesOf view) := by
  unfold finishStep at member
  split at member
  · rename_i view after
    rcases List.mem_append.mp member with old | new
    · exact .inl old
    · exact .inr ⟨view, after, rfl, mem_record new⟩
  · exact .inl member

private theorem numbered_of_finish {world : World Cache Seal} (agrees : Agrees api world)
    (finished : finish api world.processor slot status error message nowUs reserved target =
      some (view, after)) :
    finishReserves world.processor slot = true ∧ reserved = some view.sequence := by
  obtain ⟨number, _, _, given, within, _, _, rfl, _⟩ := finish_some api finished
  exact ⟨by simp [finishReserves, agrees.1, within], given⟩

/-- A finished slot puts the reserved number to use for its result, in the
history and in the reply. -/
private theorem carries_finish (world : World Cache Seal) {receivers : Link → Receiving}
    {shell : Option Reply} (made : Option (ResultView × Processor Cache Seal))
    (agrees : Agrees api tasks.world)
    (finishes : ∀ view after, made = some (view, after) → ∃ status error message nowUs target,
      finish api tasks.world.processor slot status error message nowUs reserved target =
        some (view, after))
    (recorded : world.recorded = (finishStep api tasks.world slot made).recorded)
    (received : ∀ link reply, receivers link = .replying reply →
      tasks.receivers link = .replying reply ∨ made.bind (fun (view, after) =>
        replyFor api tasks.world.processor slot view after) = some reply)
    (waiting : ∀ reply, shell = some reply → tasks.shell = some reply ∨
      made.bind (fun (view, after) =>
        replyFor api tasks.world.processor slot view after) = some reply)
    (sent : List (Reply × List UInt8)) :
    ∃ message, ∀ number item, Carries ⟨world, receivers, shell, sent⟩ number item →
      Carries tasks number item ∨
        Puts (finishReserves tasks.world.processor slot) reserved message number item := by
  cases made with
  | none =>
    refine ⟨resultMessage 0 [], ?_⟩
    rintro _ _ (held | same | same)
    · rw [recorded] at held
      exact .inl (.recorded held)
    · exact .inl (.received ((received _ _ same).resolve_right (by simp)))
    · exact .inl (.shell ((waiting _ same).resolve_right (by simp)))
  | some finished =>
    obtain ⟨view, after⟩ := finished
    obtain ⟨_, _, _, _, _, finished⟩ := finishes view after rfl
    obtain ⟨reserves, given⟩ := numbered_of_finish agrees finished
    refine ⟨resultMessage view.timestampUs (after.bytesOf view), ?_⟩
    rintro _ _ (held | same | same)
    · rw [recorded] at held
      rcases recorded_of_finishStep held with old | ⟨_, _, shown, number, kept⟩
      · exact .inl (.recorded old)
      · cases shown
        exact .inr ⟨reserves, number ▸ given, kept⟩
    · rcases received _ _ same with old | new
      · exact .inl (.received old)
      · obtain ⟨number, kept⟩ := made_of_replyFor new
        exact .inr ⟨reserves, number ▸ given, kept⟩
    · rcases waiting _ same with old | new
      · exact .inl (.shell old)
      · obtain ⟨number, kept⟩ := made_of_replyFor new
        exact .inr ⟨reserves, number ▸ given, kept⟩

/-- A step of the command path carries on what was carried, and puts at most
the number to use that was reserved for it, for one message. -/
theorem carries_taskStep {event : TaskEvent} (lawful : api.dedup.Lawful kCacheCapacity)
    (within : api.EncodesWithin) (agrees : Agrees api tasks.world)
    (stepped : taskStep api tasks (event.withReserved reserved) = some next) :
    ∃ message, ∀ number item, Carries next number item → Carries tasks number item ∨
      Puts (event.reserves api tasks) reserved message number item := by
  cases event with
  | arrive link contended header payload nowUs given channel =>
    exact carries_arrive lawful within agrees stepped
  | rejectBusy link nowUs given =>
    simp only [TaskEvent.withReserved, taskStep] at stepped
    split at stepped
    · rename_i slot waiting
      cases stepped
      simp only [TaskEvent.reserves, waiting]
      refine carries_finish _ _ agrees (fun view after rejected => ?_) rfl
        (fun other reply same => ?_) (fun _ => .inl) tasks.sent
      · obtain ⟨status, error, said, finished⟩ := finish_of_rejectBusy rejected
        exact ⟨status, error, said, nowUs, .rx, finished⟩
      · refine (replying_of_update same).imp_right fun new => ?_
        split at new <;> cases new
        assumption
    · cases stepped
  | complete cacheSlot shellStatus nowUs message given =>
    simp only [TaskEvent.withReserved, taskStep] at stepped
    split at stepped
    · cases stepped
      let made := complete api tasks.world.processor cacheSlot shellStatus nowUs message reserved
      refine carries_finish
        { finishStep api tasks.world cacheSlot made with
          finished := tasks.world.finished ++ holder api tasks.world.processor cacheSlot }
        made agrees (fun view after completed => ?_) rfl (fun _ _ => .inl) (fun _ => .inr)
        tasks.sent
      obtain ⟨status, error, said, finished⟩ := finish_of_complete completed
      exact ⟨status, error, said, nowUs, .shell, finished⟩
    · cases stepped
  | queued link | reply link =>
    simp only [TaskEvent.withReserved, taskStep] at stepped
    split at stepped <;> cases stepped
    refine ⟨resultMessage 0 [], ?_⟩
    rintro _ _ (held | same | same)
    · exact .inl (.recorded held)
    · rcases replying_of_update same with old | new
      · exact .inl (.received old)
      · cases new
    · exact .inl (.shell same)
  | replyShell cleartext =>
    simp only [TaskEvent.withReserved, taskStep] at stepped
    split at stepped <;> cases stepped
    refine ⟨resultMessage 0 [], ?_⟩
    rintro _ _ (held | same | same)
    · exact .inl (.recorded held)
    · exact .inl (.received same)
    · cases same
  | dropShell =>
    cases stepped
    refine ⟨resultMessage 0 [], ?_⟩
    rintro _ _ (held | same | same)
    · exact .inl (.recorded held)
    · exact .inl (.received same)
    · cases same

end BallyOS.Command
